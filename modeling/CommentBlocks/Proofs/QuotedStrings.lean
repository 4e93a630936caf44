import CommentBlocks.Proofs.FirstPlaces
import Mathlib.Algebra.Ring.Parity

/-!
# Where quoted strings end

A string that may hold its own quote has to mark it, by an escape in front of it or by a second
quote. Reading such a string goes from left to right and passes over marked quotes in pairs of
characters. Whether a quote at a given place is marked can be told from the place alone, and it is a
matter of parity: the escapes in front of an end token cancel out in pairs, and so do quotes.

Both rules are therefore stated with the run of one character at the end of a text, `Text.endRun`.
The one fact about runs that both need is `even_endRun_cons_cons`: a pair that is passed over, an
escape and whatever follows it, does not change the parity of the runs behind it.
-/

namespace CommentBlocks

/-! ## Runs -/

namespace Text

/-- The length of the run of `c` that `text` ends with. -/
def endRun (c : Char) (text : Text) : Nat := (text.reverse.takeWhile (· == c)).length

theorem endRun_cons_of_ne {c e : Char} (h : c ≠ e) (text : Text) :
    endRun e (c :: text) = endRun e text := by
  have hstop : [c].takeWhile (· == e) = [] := List.takeWhile_cons_of_neg (by simpa using h)
  rw [endRun, List.reverse_cons, List.takeWhile_append, hstop, List.append_nil, endRun]
  split
  · next hall => exact hall.symm
  · rfl

/-- An escape and the character behind it leave the parity of the last run as it was. -/
theorem even_endRun_cons_cons (e c : Char) (text : Text) :
    Even (endRun e (e :: c :: text)) ↔ Even (endRun e text) := by
  have hrev : (e :: c :: text).reverse = text.reverse ++ [c, e] := by
    rw [List.reverse_cons, List.reverse_cons, List.append_assoc, List.singleton_append]
  rw [endRun, hrev, List.takeWhile_append, endRun]
  split
  · -- the run reaches back to the pair, and takes in both of its characters or none
    next hall =>
    rw [hall, List.length_append]
    by_cases hc : c = e
    · have hboth : [c, e].takeWhile (· == e) = [c, e] := by simp [hc]
      rw [hboth]
      exact Nat.even_add.trans (iff_true_right even_two)
    · rw [List.takeWhile_cons_of_neg (by simpa using hc), List.length_nil, Nat.add_zero]
  · rfl

end Text

/-! ## Escapes -/

/-- The end token stands at `offset` and is not escaped: the run of escapes before it is even. -/
structure UnescapedAt (closer : Text) (escape : Option Char) (text : Text) (offset : Nat) :
    Prop where
  /-- The end token stands there. -/
  token : closer <+: text.drop offset
  /-- The escapes before it escape each other. -/
  even : ∀ e ∈ escape, Even (Text.endRun e (text.take offset))

instance (closer : Text) (escape : Option Char) (text : Text) (offset : Nat) :
    Decidable (UnescapedAt closer escape text offset) :=
  decidable_of_iff
    (closer <+: text.drop offset
      ∧ (escape.all fun e ↦ Even (Text.endRun e (text.take offset))) = true)
    ⟨fun h ↦ ⟨h.1, fun e he ↦ of_decide_eq_true ((Option.all_eq_true _ _).mp h.2 e he)⟩,
      fun h ↦ ⟨h.token, (Option.all_eq_true _ _).mpr fun e he ↦ decide_eq_true (h.even e he)⟩⟩

section Escapes

variable {closer text : Text} {escape : Option Char} {c d e : Char} {n : Nat}

theorem afterEscape?_eq_some_iff {rest : Text} :
    afterEscape? (escape.map fun e ↦ [e]) text = some rest
      ↔ ∃ e, escape = some e ∧ text = e :: rest := by
  rw [afterEscape?, Option.bind_eq_some_iff]
  constructor
  · rintro ⟨token, htoken, hrest⟩
    obtain ⟨e, rfl, rfl⟩ := Option.map_eq_some_iff.mp htoken
    exact ⟨e, rfl, (Text.afterToken?_eq_some_iff.mp hrest).2⟩
  · rintro ⟨e, rfl, rfl⟩
    exact ⟨[e], rfl, Text.afterToken?_append (List.cons_ne_nil _ _) rest⟩

theorem UnescapedAt.offset_lt (h : UnescapedAt closer escape text n) (hcloser : closer ≠ []) :
    n < text.length := by
  have hlength := h.token.length_le
  have hpos := List.length_pos_iff.mpr hcloser
  rw [List.length_drop] at hlength
  omega

theorem unescapedAt_cons_iff (hc : escape ≠ some c) :
    UnescapedAt closer escape (c :: text) (n + 1) ↔ UnescapedAt closer escape text n := by
  have hrun : ∀ e ∈ escape, Text.endRun e (c :: text.take n) = Text.endRun e (text.take n) := by
    intro e he
    apply Text.endRun_cons_of_ne
    rintro rfl
    exact hc he
  constructor
  · intro h
    exact ⟨h.token, fun e he ↦ hrun e he ▸ h.even e he⟩
  · intro h
    exact ⟨h.token, fun e he ↦ (hrun e he).symm ▸ h.even e he⟩

theorem unescapedAt_escape_iff :
    UnescapedAt closer (some e) (e :: d :: text) (n + 2) ↔ UnescapedAt closer (some e) text n := by
  have hrun : Even (Text.endRun e (e :: d :: text.take n)) ↔ Even (Text.endRun e (text.take n)) :=
    Text.even_endRun_cons_cons e d _
  constructor
  · intro h
    refine ⟨h.token, fun same hsame ↦ ?_⟩
    obtain rfl := Option.mem_some_iff.mp hsame
    exact hrun.mp (h.even e rfl)
  · intro h
    refine ⟨h.token, fun same hsame ↦ ?_⟩
    obtain rfl := Option.mem_some_iff.mp hsame
    exact hrun.mpr (h.even e rfl)

theorem not_unescapedAt_escape (hcloser : closer ≠ []) (hescape : closer.head? ≠ some e)
    (hn : n < 2) : ¬UnescapedAt closer (some e) (e :: text) n := by
  intro h
  obtain rfl | rfl : n = 0 ∨ n = 1 := by omega
  · obtain ⟨first, others, rfl⟩ := List.exists_cons_of_ne_nil hcloser
    exact hescape (congrArg some (List.cons_prefix_cons.mp h.token).1)
  · have hodd : Even 1 := by simpa [Text.endRun] using h.even e rfl
    exact absurd hodd (by decide)

theorem finds_stringBody? (hcloser : closer ≠ []) (hescape : ∀ e ∈ escape, closer.head? ≠ some e)
    (text : Text) :
    Finds (UnescapedAt closer escape text) (fun n body ↦ body = text.take n)
      (stringBody? closer (escape.map fun e ↦ [e]) text) := by
  fun_induction stringBody? closer (escape.map fun e ↦ [e]) text with
  | case1 => exact fun n h ↦ absurd (h.offset_lt hcloser) (Nat.not_lt_zero n)
  | case2 c rest hend =>
    obtain ⟨e, rfl, htext⟩ := afterEscape?_eq_some_iff.mp hend
    rw [htext]
    intro n h
    have hn : n < 1 := h.offset_lt hcloser
    exact not_unescapedAt_escape hcloser (hescape e rfl) (by omega) h
  | case3 c rest escaped more hescaped _ ih =>
    obtain ⟨e, rfl, htext⟩ := afterEscape?_eq_some_iff.mp hescaped
    rw [htext]
    refine .later 2 (ih.congr fun n ↦ unescapedAt_escape_iff) ?_ ?_
    · intro i hi
      exact not_unescapedAt_escape hcloser (hescape e rfl) hi
    · rintro n _ rfl
      rfl
  | case4 c rest hescaped hclose =>
    obtain ⟨-, more, hmore⟩ := Text.startsWith_iff.mp hclose
    exact .first ⟨⟨more, hmore.symm⟩, fun e _ ↦ Even.zero⟩ rfl
  | case5 c rest hescaped hclose ih =>
    have hc : escape ≠ some c := by
      rintro rfl
      rw [afterEscape?_eq_some_iff.mpr ⟨c, rfl, rfl⟩] at hescaped
      exact absurd hescaped (Option.some_ne_none _)
    refine .next (ih.congr fun n ↦ unescapedAt_cons_iff hc) ?_ ?_
    · intro h
      obtain ⟨more, hmore⟩ := h.token
      exact hclose (Text.startsWith_iff.mpr ⟨hcloser, more, hmore.symm⟩)
    · rintro n _ rfl
      rfl

end Escapes

/-- **A string with escapes ends at its first end token that is not escaped.** It closes exactly if
there is an offset where the end token stands and the run of escapes before it is even; it is then
read to the end of the token at the least such offset. Without an escape the offset is that of the
first end token. -/
theorem string_ends_at_first_unescaped {closer : Text} {escape : Option Char}
    (hcloser : closer ≠ []) (hescape : ∀ e ∈ escape, closer.head? ≠ some e) (opener : Text)
    (cursor : Cursor) :
    let opened : OpenBlock := .delimited (.string opener closer (escape.map fun e ↦ [e]))
    ((cursor.closeBlock opened).1.wellTerminated = true
        ↔ ∃ offset, UnescapedAt closer escape cursor.rest offset)
      ∧ ∀ offset, IsLeast {i | UnescapedAt closer escape cursor.rest i} offset →
        cursor.ClosesWith opened [] (cursor.rest.take offset ++ closer) := by
  apply Cursor.closeBlock_of_finds
  apply (finds_stringBody? hcloser hescape cursor.rest).map
  rintro n _ rfl
  exact ⟨rfl, rfl⟩

/-- The first of four quotes is escaped, so the end token is the three after it. -/
theorem string_ends_at_first_unescaped_four_quotes :
    let text : Text := "\\''''c".toList
    let cursor : Cursor := Place.cursor ⟨.zero, text⟩
    let opened : OpenBlock := .delimited (.string ['\''] "'''".toList (some ['\\']))
    "'''".toList <+: text.drop 1 ∧ cursor.ClosesWith opened [] "\\''''".toList := by
  intro text cursor opened
  have hlow : ∀ i < 2, ¬UnescapedAt "'''".toList (some '\\') text i := by decide
  have hhere : UnescapedAt "'''".toList (some '\\') text 2 := by decide
  have hleast : IsLeast {i | UnescapedAt "'''".toList (some '\\') cursor.rest i} 2 := by
    refine ⟨hhere, ?_⟩
    intro i hi
    exact Nat.le_of_not_lt fun hless ↦ hlow i hless hi
  have hcloser : "'''".toList ≠ [] := by decide
  have hescape : ∀ e ∈ some '\\', "'''".toList.head? ≠ some e := by
    rintro e ⟨⟩
    decide
  exact ⟨by decide, (string_ends_at_first_unescaped hcloser hescape ['\''] cursor).2 2 hleast⟩

/-! ## Quotes written twice -/

/-- A maximal run of `q` ends at `stop`, and its length is odd. -/
structure EndsOddRun (q : Char) (text : Text) (stop : Nat) : Prop where
  /-- It ends within the text. -/
  stop_le : stop ≤ text.length
  /-- The run has odd length. -/
  odd : Odd (Text.endRun q (text.take stop))
  /-- It does not go on. -/
  ends : (text.drop stop).head? ≠ some q

/-- The text with every `q` written twice. -/
def Text.doubling (q : Char) (text : Text) : Text :=
  text.flatMap fun c ↦ if c = q then [q, q] else [c]

section Quotes

variable {q c : Char} {text suffix : Text} {n : Nat}

theorem afterToken?_singleton_cons (q : Char) (text : Text) :
    Text.afterToken? [q] (q :: text) = some text :=
  Text.afterToken?_append (List.cons_ne_nil _ _) text

theorem afterToken?_singleton_eq_none_iff :
    Text.afterToken? [q] text = none ↔ text.head? ≠ some q := by
  rw [Option.eq_none_iff_forall_ne_some]
  constructor
  · intro h hhead
    obtain ⟨rest, rfl⟩ := List.head?_eq_some_iff.mp hhead
    exact h rest (afterToken?_singleton_cons q rest)
  · intro h rest hrest
    rw [(Text.afterToken?_eq_some_iff.mp hrest).2] at h
    exact h rfl

theorem not_endsOddRun_zero : ¬EndsOddRun q text 0 := fun h ↦ Nat.not_odd_zero h.odd

theorem endsOddRun_cons_iff (hc : c ≠ q) :
    EndsOddRun q (c :: text) (n + 1) ↔ EndsOddRun q text n := by
  have hrun : Text.endRun q (c :: text.take n) = Text.endRun q (text.take n) :=
    Text.endRun_cons_of_ne hc _
  constructor
  · intro h
    exact ⟨Nat.le_of_succ_le_succ h.stop_le, hrun ▸ h.odd, h.ends⟩
  · intro h
    exact ⟨Nat.succ_le_succ h.stop_le, (hrun.symm ▸ h.odd : Odd (Text.endRun q (c :: text.take n))),
      h.ends⟩

theorem endsOddRun_pair_iff :
    EndsOddRun q (q :: q :: text) (n + 2) ↔ EndsOddRun q text n := by
  have hrun : Odd (Text.endRun q (q :: q :: text.take n)) ↔ Odd (Text.endRun q (text.take n)) := by
    rw [← Nat.not_even_iff_odd, ← Nat.not_even_iff_odd, Text.even_endRun_cons_cons]
  constructor
  · intro h
    exact ⟨Nat.le_of_succ_le_succ (Nat.le_of_succ_le_succ h.stop_le), hrun.mp h.odd, h.ends⟩
  · intro h
    exact ⟨Nat.succ_le_succ (Nat.succ_le_succ h.stop_le), hrun.mpr h.odd, h.ends⟩

theorem endsOddRun_one_iff : EndsOddRun q (q :: text) 1 ↔ text.head? ≠ some q := by
  constructor
  · intro h
    exact h.ends
  · intro h
    refine ⟨Nat.succ_le_succ (Nat.zero_le _), ?_, h⟩
    simp [Text.endRun]

theorem finds_doubledBody? (q : Char) (text : Text) :
    Finds (EndsOddRun q text) (fun n body ↦ body ++ [q] = text.take n) (doubledBody? [q] text) := by
  fun_induction doubledBody? [q] text with
  | case1 =>
    intro n h
    obtain rfl : n = 0 := Nat.le_zero.mp h.stop_le
    exact not_endsOddRun_zero h
  | case2 c rest hquote ih =>
    have hc : c ≠ q := fun hcq ↦ afterToken?_singleton_eq_none_iff.mp hquote (congrArg some hcq)
    refine .next (ih.congr fun n ↦ endsOddRun_cons_iff hc) not_endsOddRun_zero ?_
    intro n body hbody
    exact congrArg (c :: ·) hbody
  | case3 c rest inside hquote hsecond =>
    rw [(Text.afterToken?_eq_some_iff.mp hquote).2]
    have hnext := afterToken?_singleton_eq_none_iff.mp hsecond
    refine .here (n := 1) (endsOddRun_one_iff.mpr hnext) ?_ rfl
    intro i hi
    obtain rfl : i = 0 := by omega
    exact not_endsOddRun_zero
  | case4 c rest inside hquote more hsecond _ ih =>
    rw [(Text.afterToken?_eq_some_iff.mp hquote).2, (Text.afterToken?_eq_some_iff.mp hsecond).2]
    refine .later 2 (ih.congr fun n ↦ endsOddRun_pair_iff) ?_ ?_
    · intro i hi h
      obtain rfl | rfl : i = 0 ∨ i = 1 := by omega
      · exact not_endsOddRun_zero h
      · exact endsOddRun_one_iff.mp h rfl
    · intro n body hbody
      exact congrArg (fun front ↦ q :: q :: front) hbody

theorem doubledBody?_doubling (content : Text) (hsuffix : suffix.head? ≠ some q) :
    doubledBody? [q] (content.doubling q ++ q :: suffix) = some (content.doubling q) := by
  have hnone := afterToken?_singleton_eq_none_iff.mpr hsuffix
  induction content with
  | nil =>
    rw [Text.doubling, List.flatMap_nil, List.nil_append,
      doubledBody?_of_quote (afterToken?_singleton_cons q suffix), hnone]
  | cons c content ih =>
    rw [Text.doubling, List.flatMap_cons, ← Text.doubling, List.append_assoc]
    split
    · have hpair := doubledBody?_of_quote
        (afterToken?_singleton_cons q (q :: (Text.doubling q content ++ q :: suffix)))
      rw [afterToken?_singleton_cons] at hpair
      exact hpair.trans (congrArg (Option.map _) ih)
    · next hc =>
      have hplain : Text.afterToken? [q] (c :: (Text.doubling q content ++ q :: suffix)) = none :=
        afterToken?_singleton_eq_none_iff.mpr fun h ↦ hc (Option.some_inj.mp h)
      exact (doubledBody?_of_no_quote hplain).trans (congrArg (Option.map _) ih)

end Quotes

/-- **A string with doubled quotes ends behind its first run of quotes of odd length.** It closes
exactly if there is such a run, and is then read to the end of the first one. So a text in which
every quote is written twice, with one more quote behind it and no other quote next, is read as one
string through that quote. -/
theorem doubled_string_ends_at_odd_run {q : Char} {opened : OpenBlock}
    (hopened : opened = .delimited (.doubled [q])
      ∨ ∃ openers, opened = .delimited (.raw openers [q])) (cursor : Cursor) :
    ((cursor.closeBlock opened).1.wellTerminated = true ↔ ∃ stop, EndsOddRun q cursor.rest stop)
      ∧ (∀ stop, IsLeast {i | EndsOddRun q cursor.rest i} stop →
        cursor.ClosesWith opened [] (cursor.rest.take stop))
      ∧ ∀ content suffix : Text, suffix.head? ≠ some q →
        cursor.rest = content.doubling q ++ q :: suffix →
          cursor.ClosesWith opened [] (content.doubling q ++ [q])
            ∧ (cursor.closeBlock opened).2.rest = suffix := by
  have hending : ∀ text, opened.ending? text
      = (doubledBody? [q] text).map (Ending.closedBy [q]) := by
    intro text
    rcases hopened with rfl | ⟨openers, rfl⟩
    · rfl
    · rfl
  rw [← and_assoc]
  constructor
  · apply Cursor.closeBlock_of_finds
    rw [hending]
    apply (finds_doubledBody? q cursor.rest).map
    intro n body hbody
    exact ⟨rfl, hbody⟩
  · intro content suffix hsuffix hrest
    have hfound : opened.ending? cursor.rest = some (.closedBy [q] (content.doubling q)) := by
      rw [hending, hrest, doubledBody?_doubling content hsuffix, Option.map_some]
    have hcloses : cursor.ClosesWith opened [] (content.doubling q ++ [q]) :=
      Cursor.closesWith_of_ending? hfound
    refine ⟨hcloses, hcloses.2.rest_eq ?_⟩
    rw [hrest, List.append_assoc, List.singleton_append]

/-- Two runs of two quotes and one of three: the string ends behind the third run. -/
theorem doubled_string_ends_at_odd_run_third :
    let cursor : Cursor := Place.cursor ⟨.zero, "\"\"a\"\"b\"\"\"c".toList⟩
    let opened : OpenBlock := .delimited (.raw ["r\"".toList] ['"'])
    (cursor.closeBlock opened).1.wellTerminated = true
      ∧ cursor.ClosesWith opened [] "\"\"a\"\"b\"\"\"".toList
      ∧ (cursor.closeBlock opened).2.rest = ['c'] := by
  intro cursor opened
  have hopened : opened = .delimited (.doubled ['"'])
      ∨ ∃ openers, opened = .delimited (.raw openers ['"']) := Or.inr ⟨_, rfl⟩
  obtain ⟨hcloses, hrest⟩ := (doubled_string_ends_at_odd_run hopened cursor).2.2
    "\"a\"b\"".toList ['c'] (by decide) (by decide)
  refine ⟨?_, hcloses, hrest⟩
  rw [hcloses.1]

end CommentBlocks
