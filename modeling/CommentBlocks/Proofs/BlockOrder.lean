import CommentBlocks.Proofs.SeekPoints

/-!
# The order of blocks

The blocks of a language are tried in the order of its profile, and the first that begins at a place
wins. So the order can matter only where two blocks may begin at one place. Whatever the kind of a
block, the text unread where it begins starts with one of its openers
(`Place.exists_opener_of_opening?`), and of two texts that start the same text one starts the other.
Blocks whose openers do not start one another are therefore never in each other's way, and a
language all of whose blocks are so may list them in any order.

Trying a block in vain is not quite without effect: heredocs and anchored blocks read on before they
refuse, and what they give back can no longer be undone. That a survey depends on the place of its
cursor alone (`survey_congr`) is what makes this harmless.
-/

namespace CommentBlocks

/-! ## Openers -/

/-- No opener of one block starts an opener of the other. -/
def Block.Apart (a b : Block) : Prop :=
  ∀ s ∈ a.openers, ∀ t ∈ b.openers, ¬s <+: t ∧ ¬t <+: s

instance : DecidableRel Block.Apart := fun a b ↦
  inferInstanceAs (Decidable (∀ s ∈ a.openers, ∀ t ∈ b.openers, ¬s <+: t ∧ ¬t <+: s))

namespace Place

variable {place : Place} {blocks others : List Block}

/-- **Where a block begins, one of its openers stands.** -/
theorem exists_opener_of_opening? {block : Block} {found : OpenBlock × Text}
    (h : place.opening? block = some found) : ∃ opener ∈ block.openers, opener <+: place.rest := by
  obtain ⟨body, last, hopening, -⟩ := openingAt_of_opening? h
  unfold Block.openingAt at hopening
  split at hopening
  · obtain ⟨rest, -, hrest, -⟩ := heredocOpening_eq_opened hopening
    exact ⟨heredocOpener, List.mem_singleton_self _, rest, hrest.symm⟩
  · next opener _ =>
    obtain ⟨-, hbreak, -⟩ := anchoredOpening_eq_opened hopening
    obtain ⟨rest, hrest, -⟩ := Option.bind_eq_some_iff.mp hbreak
    exact ⟨opener, List.mem_singleton_self _, rest, (Text.afterToken?_eq_some_iff.mp hrest).2.symm⟩
  · obtain ⟨hfind, -⟩ := plainOpening_eq_opened hopening
    have hstart : Text.startsWith last place.rest = true := by simpa using List.find?_some hfind
    obtain ⟨-, rest, hrest⟩ := Text.startsWith_iff.mp hstart
    exact ⟨last, List.mem_of_find?_eq_some hfind, rest, hrest.symm⟩

theorem opening?_eq_none_of_apart {a b : Block} {found : OpenBlock × Text} (hapart : a.Apart b)
    (h : place.opening? a = some found) : place.opening? b = none := by
  rw [Option.eq_none_iff_forall_ne_some]
  intro other hother
  obtain ⟨s, hs, hstart⟩ := exists_opener_of_opening? h
  obtain ⟨t, ht, hstart'⟩ := exists_opener_of_opening? hother
  rcases List.prefix_or_prefix_of_prefix hstart hstart' with hst | hts
  · exact (hapart s hs t ht).1 hst
  · exact (hapart s hs t ht).2 hts

/-- **Blocks that are apart may be tried in any order.** -/
theorem findSome?_opening?_of_perm (place : Place) (hperm : blocks.Perm others)
    (hapart : ∀ a ∈ blocks, ∀ b ∈ blocks, a ≠ b → a.Apart b) :
    blocks.findSome? place.opening? = others.findSome? place.opening? := by
  induction hperm with
  | nil => rfl
  | cons block _ ih =>
    rw [List.findSome?_cons, List.findSome?_cons, ih]
    intro a ha b hb
    exact hapart a (List.mem_cons_of_mem _ ha) b (List.mem_cons_of_mem _ hb)
  | swap a b blocks =>
    rw [List.findSome?_cons, List.findSome?_cons, List.findSome?_cons, List.findSome?_cons]
    by_cases hab : b = a
    · rw [hab]
    -- at most one of the two begins here, and the other is passed over wherever it stands
    rcases hb : place.opening? b with - | found
    · rfl
    · have hother : b.Apart a :=
        hapart b List.mem_cons_self a (List.mem_cons_of_mem _ List.mem_cons_self) hab
      rw [opening?_eq_none_of_apart hother hb]
  | trans hfirst _ ihfirst ihsecond =>
    rw [ihfirst hapart, ihsecond]
    intro a ha b hb
    exact hapart a (hfirst.mem_iff.mpr ha) b (hfirst.mem_iff.mpr hb)

theorem turn_of_perm (place : Place) (hperm : blocks.Perm others)
    (hapart : ∀ a ∈ blocks, ∀ b ∈ blocks, a ≠ b → a.Apart b) :
    place.turn blocks = place.turn others := by
  rw [turn, turn, findSome?_opening?_of_perm place hperm hapart]

end Place

/-! ## Surveys and scans -/

theorem survey_eq_of_turn_eq {blocks others : List Block}
    (h : ∀ place : Place, place.turn blocks = place.turn others) (cursor : Cursor) :
    survey blocks cursor = survey others cursor := by
  rcases hturn : cursor.here.turn blocks with - | ⟨comment, next⟩ | block
  · rw [survey_of_finished hturn, survey_of_finished (h _ ▸ hturn)]
  · have hless : next.cursor.here.rest.length < cursor.here.rest.length :=
      Place.length_rest_lt_of_turn hturn
    rw [survey_of_moved cursor hturn, survey_of_moved cursor (h _ ▸ hturn),
      survey_eq_of_turn_eq h next.cursor]
  · rw [survey_of_stopped hturn, survey_of_stopped (h _ ▸ hturn)]
termination_by cursor.here.rest.length

namespace Source

/-- **The order of blocks matters only between openers that overlap.** If no opener of a block of
the language starts an opener of another one, its blocks may be listed in any order: every source is
scanned alike, whatever is kept. -/
theorem scan_of_blocks_perm (profile : Profile)
    (hapart : ∀ a ∈ profile.blocks, ∀ b ∈ profile.blocks, a ≠ b → a.Apart b)
    (others : List Block) (hperm : others.Perm profile.blocks) (source : Source)
    (config : ScanConfig) :
    source.scan { profile with blocks := others } config = source.scan profile config := by
  have hsurvey : survey profile.blocks source.cursor = survey others source.cursor := by
    refine survey_eq_of_turn_eq ?_ source.cursor
    intro place
    exact place.turn_of_perm hperm.symm hapart
  rw [scan, scan, hsurvey]

/-- A heredoc that refuses its label and an anchored block that refuses its line, tried before the
others and after them. -/
theorem scan_of_blocks_perm_refusals :
    let blocks : List Block :=
      [.heredoc, .anchored "=begin" "=end", .raw ["r\"", "R\""] "\"", .line "#", .verbatim "'" "'"]
    let others : List Block :=
      [.line "#", .verbatim "'" "'", .raw ["r\"", "R\""] "\"", .anchored "=begin" "=end", .heredoc]
    let source : Source :=
      ⟨"<<<1\n=begins\n=begin\nfirst\n=end\nR\"#\"\"\" #second\n'".toList, ⟨"a"⟩, .zero⟩
    (∀ a ∈ blocks, ∀ b ∈ blocks, a ≠ b → a.Apart b) ∧ others.Perm blocks
      ∧ (source.scan ⟨"x", "X", [], blocks⟩ ⟨4⟩).blocks
        = [⟨⟨"a"⟩, 3, "first\n".toList⟩, ⟨⟨"a"⟩, 6, "second\n".toList⟩]
      ∧ (source.scan ⟨"x", "X", [], blocks⟩ ⟨4⟩).isComplete = false
      ∧ source.scan ⟨"x", "X", [], others⟩ ⟨4⟩ = source.scan ⟨"x", "X", [], blocks⟩ ⟨4⟩ := by
  intro blocks others source
  have hapart : ∀ a ∈ blocks, ∀ b ∈ blocks, a ≠ b → a.Apart b := by decide +kernel
  have hperm : others.Perm blocks := by decide +kernel
  refine ⟨hapart, hperm, by decide +kernel +zetaReduce, by decide +kernel +zetaReduce, ?_⟩
  exact scan_of_blocks_perm ⟨"x", "X", [], blocks⟩ hapart others hperm source ⟨4⟩

end Source

end CommentBlocks
