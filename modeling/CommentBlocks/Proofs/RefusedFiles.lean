import CommentBlocks.Proofs.CheckedSources
import CommentBlocks.Proofs.DecodingFaults
import CommentBlocks.Proofs.ReportedDiagnostics

/-!
# Why files are refused

A file goes through stages, and the first that fails decides what is said about it. Each stage has
one reason to fail, which can be told from the file and the registry without running the others:
there is no profile, the label names no encoding, the content is not of its encoding, the text is
too long, or it is not UTF-8.

How a file is read is put down in `Encoding.ReadAs`: an encoding, the mark that stands in front, and
the content behind it. Once that is known, extraction is an equation (`extractFile_of_readAs`) with
two results to look up, that of decoding the content and that of checking the text. The second can
find a fault in UTF-8 only, since everything else has been made into UTF-8 on the way
(`exists_encode_of_decode`).

## Where the fault is

Both results carry an offset, and they do not count from the same place. Decoding counts from the
start of the file. Checking counts from the start of the text, and a mark in front of the text is
not part of it. So the offset of a fault in UTF-8 is its index in the file only where there is no
mark (`fault_offsets`).
-/

namespace CommentBlocks

namespace Encoding

/-! ## How a file is read -/

/-- A file is read in `encoding`: it is a mark, which may be missing, and `content`. -/
structure ReadAs (encoding : Encoding) (bytes : Bytes) (label : Option String)
    (mark content : Bytes) : Prop where
  /-- The mark stands in front of the content. -/
  append : bytes = mark ++ content
  /-- It is the mark of the encoding, and missing only if the file does not begin with it. -/
  marked : encoding.byteOrderMark? = some mark
    ∨ mark = [] ∧ ∀ other ∈ encoding.byteOrderMark?, ¬other <+: bytes
  /-- A label names the encoding. -/
  named : ∀ name ∈ label, encoding.IsNamedBy name
  /-- Without a label the mark does, and without any mark the file is UTF-8. -/
  unnamed : label = none → encoding.byteOrderMark? = some mark
    ∨ encoding = utf8 ∧ ∀ other : Encoding, ∀ mark ∈ other.byteOrderMark?, ¬mark <+: bytes

variable {bytes mark content : Bytes} {label : Option String} {encoding : Encoding}

theorem isNamedBy_of_ofLabel? {name : String} (h : ofLabel? name = some encoding) :
    encoding.IsNamedBy name := by
  have hfound := List.find?_some h
  exact of_decide_eq_true hfound

theorem sniff?_eq_none (h : ∀ other : Encoding, ∀ mark ∈ other.byteOrderMark?, ¬mark <+: bytes) :
    sniff? bytes = none := by
  apply Option.eq_none_iff_forall_ne_some.mpr
  rintro ⟨other, length⟩ hsniff
  obtain ⟨mark, hmark, hbegin⟩ := sniff?_eq_some hsniff
  exact h other mark hmark hbegin

/-- A file has one reading, and it is the one that is chosen. -/
theorem ReadAs.choose_eq (h : encoding.ReadAs bytes label mark content) :
    choose bytes label = .ok (encoding, mark.length) := by
  rcases h.marked with hmark | ⟨rfl, hnone⟩
  · rw [h.append]
    exact choose_of_mark hmark h.named content
  · have hother : ∀ length, sniff? bytes ≠ some (encoding, length) := by
      intro length hsniff
      obtain ⟨other, hother, hbegin⟩ := sniff?_eq_some hsniff
      exact hnone other hother hbegin
    rcases label with - | name
    · rcases h.unnamed rfl with hmark | ⟨rfl, hall⟩
      · exact absurd (List.nil_prefix : [] <+: bytes) (hnone [] hmark)
      · rw [choose, sniff?_eq_none hall]
        rfl
    · exact choose_of_label (h.named name rfl) hother

theorem readAs_of_choose {dropped : Nat} (h : choose bytes label = .ok (encoding, dropped)) :
    encoding.ReadAs bytes label (bytes.take dropped) (bytes.drop dropped) := by
  refine ⟨(List.take_append_drop _ _).symm, ?_, ?_, ?_⟩
  · rcases byteOrderMark?_of_choose h with hmark | ⟨rfl, hnone⟩
    · exact Or.inl hmark
    · exact Or.inr ⟨List.take_zero, hnone⟩
  · rintro name ⟨⟩
    rw [choose] at h
    rcases hlabel : ofLabel? name with - | named
    · rw [hlabel] at h
      cases h
    · have hnamed := isNamedBy_of_ofLabel? hlabel
      rw [hlabel] at h
      rcases hsniff : sniff? bytes with - | found
      · rw [hsniff] at h
        cases h
        exact hnamed
      · rw [hsniff] at h
        cases h
        exact hnamed
  · rintro rfl
    rw [choose, Except.ok.injEq] at h
    rcases hsniff : sniff? bytes with - | found
    · rw [hsniff, Option.getD_none, Prod.mk.injEq] at h
      refine Or.inr ⟨h.1.symm, ?_⟩
      rintro other mark hmark ⟨rest, rfl⟩
      rw [sniff?_append hmark] at hsniff
      cases hsniff
    · rw [hsniff, Option.getD_some] at h
      rw [h] at hsniff
      exact Or.inl (byteOrderMark?_of_sniff? hsniff)

theorem exists_readAs (bytes : Bytes) (h : ¬∃ name ∈ label, ofLabel? name = none) :
    ∃ encoding : Encoding, ∃ mark content, encoding.ReadAs bytes label mark content := by
  have hchoose : ∃ found, choose bytes label = .ok found := by
    rcases label with - | name
    · exact ⟨_, rfl⟩
    · rcases hlabel : ofLabel? name with - | named
      · exact absurd ⟨name, rfl, hlabel⟩ h
      · rw [choose, hlabel]
        rcases sniff? bytes with - | found
        · exact ⟨_, rfl⟩
        · exact ⟨_, rfl⟩
  obtain ⟨⟨encoding, dropped⟩, hchoose⟩ := hchoose
  exact ⟨encoding, _, _, readAs_of_choose hchoose⟩

theorem ReadAs.decodeFile_eq (h : encoding.ReadAs bytes label mark content) :
    decodeFile bytes label =
      match encoding.decode content with
      | .error error => .error (error.shift mark.length)
      | .ok text => .ok (encoding, text) := by
  have hcontent : bytes.drop mark.length = content := by
    rw [h.append, List.drop_left]
  rcases hdecode : encoding.decode content with error | text
  · rw [decodeFile, h.choose_eq]
    dsimp only
    rw [hcontent, hdecode]
  · rw [decodeFile, h.choose_eq]
    dsimp only
    rw [hcontent, hdecode]

/-! ## What decoding can come to -/

/-- The content is not the encoding of a text. -/
def IsMalformed (encoding : Encoding) (content : Bytes) : Prop :=
  ∀ text, content ≠ encoding.encode text

/-- Decoding finds a fault in UTF-16 that has one, where the longest text that it begins with ends,
and no other fault. -/
theorem decode_cases (encoding : Encoding) (content : Bytes) :
    ((∃ order, encoding = utf16 order) ∧ encoding.IsMalformed content
        ∧ ∃ front, IsLongestFront encoding.encode content front
          ∧ encoding.decode content = .error (.malformed encoding (encoding.encode front).length)
          ∧ (encoding.encode front).length < content.length)
      ∨ ¬((∃ order, encoding = utf16 order) ∧ encoding.IsMalformed content)
        ∧ ∃ text, encoding.decode content = .ok text := by
  by_cases hfault : (∃ order, encoding = utf16 order) ∧ encoding.IsMalformed content
  · obtain ⟨⟨order, rfl⟩, hmalformed⟩ := hfault
    exact Or.inl ⟨⟨order, rfl⟩, hmalformed, exists_malformed_of_forall_ne order content hmalformed⟩
  · refine Or.inr ⟨hfault, ?_⟩
    have hutf16 : ∀ order, encoding = utf16 order → ∃ text, encoding.decode content = .ok text := by
      rintro order rfl
      obtain ⟨text, htext⟩ : ∃ text, content = (utf16 order).encode text := by
        by_contra hnone
        exact hfault ⟨⟨order, rfl⟩, not_exists.mp hnone⟩
      exact ⟨_, (decode_utf16_eq_ok_iff order content).mpr ⟨text, htext, rfl⟩⟩
    cases encoding with
    | utf8 => exact ⟨_, rfl⟩
    | latin1 => exact ⟨_, rfl⟩
    | utf16le => exact hutf16 .little rfl
    | utf16be => exact hutf16 .big rfl

/-- **What has been decoded is UTF-8**, unless it was taken to be. -/
theorem exists_encode_of_decode {text : Bytes} (hencoding : encoding ≠ utf8)
    (h : encoding.decode content = .ok text) : ∃ decoded, text = Utf8.encode decoded := by
  cases encoding with
  | utf8 => exact absurd rfl hencoding
  | latin1 => exact ⟨latin1Text content, (Except.ok.inj h).symm.trans (decodeLatin1_eq content)⟩
  | utf16le =>
    obtain ⟨decoded, -, htext⟩ := (decode_utf16_eq_ok_iff .little content).mp h
    exact ⟨decoded, htext⟩
  | utf16be =>
    obtain ⟨decoded, -, htext⟩ := (decode_utf16_eq_ok_iff .big content).mp h
    exact ⟨decoded, htext⟩

theorem not_utf8_iff {text : Bytes} (h : encoding.decode content = .ok text) :
    (∀ decoded, text ≠ Utf8.encode decoded)
      ↔ encoding = utf8 ∧ encoding.IsMalformed content := by
  by_cases hencoding : encoding = utf8
  · subst hencoding
    rw [← Except.ok.inj h]
    exact (and_iff_right rfl).symm
  · obtain ⟨decoded, htext⟩ := exists_encode_of_decode hencoding h
    exact iff_of_false (fun hne ↦ hne decoded htext) fun hutf8 ↦ hencoding hutf8.1

/-! ## The first byte that cannot be read -/

/-- The first malformed sequence of a file begins at `index`. Before it stand the mark and the
longest text that the content begins with. -/
def FaultAt (encoding : Encoding) (bytes : Bytes) (label : Option String) (index : Nat) : Prop :=
  ∃ mark content front, encoding.ReadAs bytes label mark content
    ∧ IsLongestFront encoding.encode content front
    ∧ index = mark.length + (encoding.encode front).length ∧ index < bytes.length

theorem FaultAt.unique {index other : Nat} (h : encoding.FaultAt bytes label index)
    (hother : encoding.FaultAt bytes label other) : index = other := by
  obtain ⟨mark, content, front, hread, hfront, rfl, -⟩ := h
  obtain ⟨mark', content', front', hread', hfront', rfl, -⟩ := hother
  have hmark : mark.length = mark'.length := by
    have hchoose := hread.choose_eq.symm.trans hread'.choose_eq
    exact (Prod.mk.inj (Except.ok.inj hchoose)).2
  obtain ⟨rfl, rfl⟩ := List.append_inj (hread.append.symm.trans hread'.append) hmark
  rw [Nat.le_antisymm (hfront'.longest hfront.isPrefix) (hfront.longest hfront'.isPrefix)]

end Encoding

/-! ## Extraction as an equation -/

namespace Extractor

variable {extractor : Extractor} {job : Job}

def profile? (extractor : Extractor) (job : Job) : Option Profile :=
  job.language.elim (extractor.registry.forPath? job.origin.name) extractor.registry.get?

theorem resolveLanguage_eq (extractor : Extractor) (job : Job) :
    extractor.resolveLanguage job =
      match extractor.profile? job with
      | some profile => .ok profile
      | none => .error (.unsupportedLanguage job.origin job.language) := by
  rw [resolveLanguage, profile?]
  cases job.language <;> rfl

theorem extractFile_of_no_profile (h : extractor.profile? job = none) :
    extractor.extractFile job = .error (.unsupportedLanguage job.origin job.language) := by
  rw [extractFile, resolveLanguage_eq, h]
  rfl

theorem extractFile_of_no_encoding {profile : Profile} {label : String}
    (hprofile : extractor.profile? job = some profile) (hlabel : job.encoding = some label)
    (h : Encoding.ofLabel? label = none) :
    extractor.extractFile job = .error (.unknownEncoding job.origin label) := by
  have hdecode : decodeJob job = .error (.unknownEncoding job.origin label) := by
    rw [decodeJob, decodeFile, hlabel, Encoding.choose, h]
    rfl
  rw [extractFile, resolveLanguage_eq, hprofile, hdecode]
  rfl

/-- **What comes of a file that can be read** is what comes of decoding and checking its content. -/
theorem extractFile_of_readAs {profile : Profile} {encoding : Encoding} {mark content : Bytes}
    (hprofile : extractor.profile? job = some profile)
    (h : encoding.ReadAs job.bytes job.encoding mark content) :
    extractor.extractFile job =
      match encoding.decode content with
      | .error error => .error (.ofDecodeError job.origin (error.shift mark.length))
      | .ok text =>
        match Source.ofBytes text job.origin .zero with
        | .error error => .error (.source error)
        | .ok source => .ok (source.scan profile extractor.config.scan) := by
  rw [extractFile, resolveLanguage_eq, hprofile, decodeJob, h.decodeFile_eq]
  cases encoding.decode content with
  | error error => rfl
  | ok text =>
    change jobSource job text >>= _ = _
    rw [jobSource]
    dsimp only
    cases Source.ofBytes text job.origin .zero <;> rfl

end Extractor

/-! ## Reasons -/

/-- What can come of a file, apart from particulars. -/
inductive Verdict where
  /-- There is no profile. -/
  | unsupportedLanguage
  /-- The label is not known. -/
  | unknownEncoding
  /-- The content is not of its encoding. -/
  | malformed
  /-- The text does not fit a document. -/
  | tooLarge
  /-- The text is not UTF-8. -/
  | invalidUtf8
  /-- The file was scanned. -/
  | scanned
deriving DecidableEq

def Outcome.verdict : Outcome → Verdict
  | .error (.unsupportedLanguage ..) => .unsupportedLanguage
  | .error (.unknownEncoding ..) => .unknownEncoding
  | .error (.malformed ..) => .malformed
  | .error (.source (.tooLarge ..)) => .tooLarge
  | .error (.source (.invalidUtf8 ..)) => .invalidUtf8
  | .ok _ => .scanned

namespace Extractor

variable {extractor : Extractor} {job : Job} {encoding : Encoding} {mark content : Bytes}

theorem verdict_of_malformed {profile : Profile} {offset : Nat}
    (hprofile : extractor.profile? job = some profile)
    (hread : encoding.ReadAs job.bytes job.encoding mark content)
    (h : encoding.decode content = .error (.malformed encoding offset)) :
    (extractor.extractFile job).verdict = .malformed := by
  rw [extractFile_of_readAs hprofile hread, h]
  rfl

theorem verdict_of_decode {profile : Profile} {text : Bytes}
    (hprofile : extractor.profile? job = some profile)
    (hread : encoding.ReadAs job.bytes job.encoding mark content)
    (h : encoding.decode content = .ok text) :
    (0xFFFFFFFF < text.length ∧ (extractor.extractFile job).verdict = .tooLarge)
      ∨ (text.length ≤ 0xFFFFFFFF ∧ (∀ decoded, text ≠ Utf8.encode decoded)
        ∧ (extractor.extractFile job).verdict = .invalidUtf8)
      ∨ (text.length ≤ 0xFFFFFFFF ∧ (¬∀ decoded, text ≠ Utf8.encode decoded)
        ∧ (extractor.extractFile job).verdict = .scanned) := by
  have hzero : Position.zero.byteOffset + text.length = text.length := Nat.zero_add _
  rw [extractFile_of_readAs hprofile hread, h]
  dsimp only
  rcases Nat.lt_or_ge 0xFFFFFFFF text.length with hlarge | hfits
  · refine Or.inl ⟨hlarge, ?_⟩
    rw [Source.ofBytes, hzero, if_pos (show Source.maxOffset < text.length from hlarge)]
    rfl
  · obtain ⟨front, hfront, length, hresult⟩ :=
      Source.exists_ofBytes_eq job.origin (hzero.symm ▸ hfits)
    rw [hresult]
    by_cases heq : Utf8.encode front = text
    · rw [if_pos heq]
      exact Or.inr (Or.inr ⟨hfits, fun hbad ↦ hbad front heq.symm, rfl⟩)
    · rw [if_neg heq]
      exact Or.inr (Or.inl ⟨hfits, not_exists.mp (mt hfront.encode_eq_iff.mpr heq), rfl⟩)

theorem verdict_of_readAs {profile : Profile} (hprofile : extractor.profile? job = some profile)
    (hread : encoding.ReadAs job.bytes job.encoding mark content) :
    (extractor.extractFile job).verdict ≠ .unsupportedLanguage
      ∧ (extractor.extractFile job).verdict ≠ .unknownEncoding := by
  rcases encoding.decode_cases content with ⟨-, -, front, -, hdecode, -⟩ | ⟨-, text, hdecode⟩
  · rw [verdict_of_malformed hprofile hread hdecode]
    decide
  · rcases verdict_of_decode hprofile hread hdecode with ⟨-, hv⟩ | ⟨-, -, hv⟩ | ⟨-, -, hv⟩
    all_goals
      rw [hv]
      decide

/-! ### Stage by stage -/

theorem verdict_eq_unknownEncoding_iff (h : extractor.profile? job ≠ none) :
    (extractor.extractFile job).verdict = .unknownEncoding
      ↔ ∃ label ∈ job.encoding, Encoding.ofLabel? label = none := by
  obtain ⟨profile, hprofile⟩ := Option.ne_none_iff_exists'.mp h
  by_cases hlabel : ∃ label ∈ job.encoding, Encoding.ofLabel? label = none
  · refine iff_of_true ?_ hlabel
    obtain ⟨label, hgiven, hunknown⟩ := hlabel
    rw [extractFile_of_no_encoding hprofile hgiven hunknown]
    rfl
  · obtain ⟨encoding, mark, content, hread⟩ := Encoding.exists_readAs job.bytes hlabel
    exact iff_of_false (verdict_of_readAs hprofile hread).2 hlabel

theorem verdict_eq_unsupportedLanguage_iff :
    (extractor.extractFile job).verdict = .unsupportedLanguage
      ↔ extractor.profile? job = none := by
  rcases hprofile : extractor.profile? job with - | profile
  · rw [extractFile_of_no_profile hprofile]
    exact iff_of_true rfl rfl
  · have hsome : extractor.profile? job ≠ none := by
      rw [hprofile]
      exact Option.some_ne_none profile
    refine iff_of_false ?_ (Option.some_ne_none profile)
    by_cases hlabel : ∃ label ∈ job.encoding, Encoding.ofLabel? label = none
    · rw [(verdict_eq_unknownEncoding_iff hsome).mpr hlabel]
      exact Verdict.noConfusion
    · obtain ⟨encoding, mark, content, hread⟩ := Encoding.exists_readAs job.bytes hlabel
      exact (verdict_of_readAs hprofile hread).1

theorem verdict_eq_malformed_iff {profile : Profile}
    (hprofile : extractor.profile? job = some profile)
    (hread : encoding.ReadAs job.bytes job.encoding mark content) :
    (extractor.extractFile job).verdict = .malformed
      ↔ (∃ order, encoding = .utf16 order) ∧ encoding.IsMalformed content := by
  rcases encoding.decode_cases content with
    ⟨hutf16, hmalformed, front, -, hdecode, -⟩ | ⟨hwell, text, hdecode⟩
  · exact iff_of_true (verdict_of_malformed hprofile hread hdecode) ⟨hutf16, hmalformed⟩
  · rcases verdict_of_decode hprofile hread hdecode with ⟨-, hv⟩ | ⟨-, -, hv⟩ | ⟨-, -, hv⟩
    all_goals
      rw [hv]
      exact iff_of_false Verdict.noConfusion hwell

theorem verdict_of_text {profile : Profile} {text : Bytes}
    (hprofile : extractor.profile? job = some profile)
    (hread : encoding.ReadAs job.bytes job.encoding mark content)
    (h : encoding.decode content = .ok text) :
    ((extractor.extractFile job).verdict = .tooLarge ↔ 0xFFFFFFFF < text.length)
      ∧ (text.length ≤ 0xFFFFFFFF →
        ((extractor.extractFile job).verdict = .invalidUtf8
          ↔ encoding = .utf8 ∧ encoding.IsMalformed content)
        ∧ (¬(encoding = .utf8 ∧ encoding.IsMalformed content) →
          (extractor.extractFile job).verdict = .scanned)) := by
  rw [← Encoding.not_utf8_iff h]
  rcases verdict_of_decode hprofile hread h with
    ⟨hlarge, hv⟩ | ⟨hfits, hbad, hv⟩ | ⟨hfits, hgood, hv⟩
  all_goals rw [hv]
  · exact ⟨iff_of_true rfl hlarge, fun hfits ↦ absurd hlarge (Nat.not_lt.mpr hfits)⟩
  · refine ⟨iff_of_false Verdict.noConfusion (Nat.not_lt.mpr hfits), fun _ ↦ ?_⟩
    exact ⟨iff_of_true rfl hbad, fun hgood ↦ absurd hbad hgood⟩
  · refine ⟨iff_of_false Verdict.noConfusion (Nat.not_lt.mpr hfits), fun _ ↦ ?_⟩
    exact ⟨iff_of_false Verdict.noConfusion hgood, fun _ ↦ rfl⟩

/-! ### The file that is named -/

theorem exists_of_bind_eq_ok {α β ε : Type} {first : Except ε α} {next : α → Except ε β} {b : β}
    (h : first >>= next = .ok b) : ∃ a, first = .ok a ∧ next a = .ok b := by
  cases first with
  | error error => cases h
  | ok a => exact ⟨a, rfl, h⟩

theorem origin_of_mem_blocks {scan : FileScan} {block : ExtractedBlock}
    (h : extractor.extractFile job = .ok scan) (hblock : block ∈ scan.blocks) :
    block.origin = scan.origin := by
  obtain ⟨profile, -, h⟩ := exists_of_bind_eq_ok h
  obtain ⟨decoded, -, h⟩ := exists_of_bind_eq_ok h
  obtain ⟨source, -, h⟩ := exists_of_bind_eq_ok h
  rw [← Except.ok.inj h] at hblock ⊢
  obtain ⟨entry, -, rfl⟩ := List.mem_map.mp hblock
  rfl

/-- **A file fails for one reason, and what is said about it names the file.** It is refused without
a profile, and only then. Otherwise it is refused for a label that is not known; otherwise it can be
read in an encoding, as a mark and content. It is refused as malformed if that is UTF-16 and not
well-formed. Otherwise there is a text, which may be too large; otherwise it is refused as invalid
UTF-8 if it was taken for UTF-8 and is not. Otherwise it is scanned. -/
theorem fails_for_one_reason (extractor : Extractor) (job : Job) :
    let outcome := extractor.extractFile job
    (outcome.verdict = .unsupportedLanguage ↔ extractor.profile? job = none)
      ∧ (extractor.profile? job ≠ none →
        (outcome.verdict = .unknownEncoding
          ↔ ∃ label ∈ job.encoding, Encoding.ofLabel? label = none)
        ∧ ((¬∃ label ∈ job.encoding, Encoding.ofLabel? label = none) →
          (∃ encoding : Encoding, ∃ mark content,
            encoding.ReadAs job.bytes job.encoding mark content)
          ∧ ∀ (encoding : Encoding) (mark content : Bytes),
            encoding.ReadAs job.bytes job.encoding mark content →
            (outcome.verdict = .malformed
              ↔ (∃ order, encoding = .utf16 order) ∧ encoding.IsMalformed content)
            ∧ (¬((∃ order, encoding = .utf16 order) ∧ encoding.IsMalformed content) →
              ∃ text, encoding.decode content = .ok text
                ∧ (outcome.verdict = .tooLarge ↔ 0xFFFFFFFF < text.length)
                ∧ (text.length ≤ 0xFFFFFFFF →
                  (outcome.verdict = .invalidUtf8
                    ↔ encoding = .utf8 ∧ encoding.IsMalformed content)
                  ∧ (¬(encoding = .utf8 ∧ encoding.IsMalformed content) →
                    outcome.verdict = .scanned)))))
      ∧ (∀ error, outcome = .error error →
        error.origin = job.origin ∧ error.diagnostic.origin? = some job.origin)
      ∧ ∀ scan, outcome = .ok scan →
        scan.origin = job.origin ∧ (∀ block ∈ scan.blocks, block.origin = job.origin)
          ∧ ∀ warning ∈ scan.diagnostic?, warning.origin? = some job.origin := by
  intro outcome
  have horigin : outcome.origin = job.origin := extractor.origin_extractFile job
  refine ⟨verdict_eq_unsupportedLanguage_iff, ?_, ?_, ?_⟩
  · intro hsome
    refine ⟨verdict_eq_unknownEncoding_iff hsome, ?_⟩
    intro hlabel
    refine ⟨Encoding.exists_readAs job.bytes hlabel, ?_⟩
    intro encoding mark content hread
    obtain ⟨profile, hprofile⟩ := Option.ne_none_iff_exists'.mp hsome
    refine ⟨verdict_eq_malformed_iff hprofile hread, ?_⟩
    intro hwell
    rcases encoding.decode_cases content with ⟨hutf16, hmalformed, -⟩ | ⟨-, text, hdecode⟩
    · exact absurd ⟨hutf16, hmalformed⟩ hwell
    · exact ⟨text, hdecode, verdict_of_text hprofile hread hdecode⟩
  · intro error herror
    rw [herror] at horigin
    exact ⟨horigin, horigin ▸ error.origin?_diagnostic⟩
  · intro scan hscan
    rw [hscan] at horigin
    refine ⟨horigin, ?_, ?_⟩
    · intro block hblock
      exact (origin_of_mem_blocks hscan hblock).trans horigin
    · intro warning hwarning
      have hreported : Outcome.diagnostic? (.ok scan) = some warning := hwarning
      exact horigin ▸ Outcome.origin?_of_diagnostic? hreported

/-! ## Offsets -/

theorem exists_readAs_of_verdict {verdict : Verdict}
    (h : (extractor.extractFile job).verdict = verdict)
    (hstage : verdict ≠ .unsupportedLanguage ∧ verdict ≠ .unknownEncoding) :
    ∃ profile, extractor.profile? job = some profile
      ∧ ∃ encoding : Encoding, ∃ mark content,
        encoding.ReadAs job.bytes job.encoding mark content := by
  have hsome : extractor.profile? job ≠ none := by
    intro hnone
    exact hstage.1 (h.symm.trans (verdict_eq_unsupportedLanguage_iff.mpr hnone))
  have hknown : ¬∃ label ∈ job.encoding, Encoding.ofLabel? label = none := by
    intro hunknown
    exact hstage.2 (h.symm.trans ((verdict_eq_unknownEncoding_iff hsome).mpr hunknown))
  obtain ⟨profile, hprofile⟩ := Option.ne_none_iff_exists'.mp hsome
  exact ⟨profile, hprofile, Encoding.exists_readAs job.bytes hknown⟩

theorem faultAt_of_malformed {origin : Origin} {found : Encoding} {offset : Nat}
    (h : extractor.extractFile job = .error (.malformed origin found offset)) :
    found.FaultAt job.bytes job.encoding offset := by
  have hverdict : (extractor.extractFile job).verdict = .malformed := by
    rw [h]
    rfl
  obtain ⟨profile, hprofile, encoding, mark, content, hread⟩ :=
    exists_readAs_of_verdict hverdict (by decide)
  rcases encoding.decode_cases content with
    ⟨-, -, front, hfront, hdecode, hlt⟩ | ⟨hwell, -⟩
  · rw [extractFile_of_readAs hprofile hread, hdecode] at h
    obtain ⟨-, rfl, rfl⟩ := ExtractError.malformed.inj (Except.error.inj h)
    refine ⟨mark, content, front, hread, hfront, Nat.add_comm _ _, ?_⟩
    rw [hread.append, List.length_append]
    omega
  · exact absurd ((verdict_eq_malformed_iff hprofile hread).mp hverdict) hwell

theorem faultAt_of_invalidUtf8 {origin : Origin} {position : Position} {length : Nat}
    (h : extractor.extractFile job = .error (.source (.invalidUtf8 origin position length))) :
    ∃ mark content, Encoding.utf8.ReadAs job.bytes job.encoding mark content
      ∧ Encoding.utf8.FaultAt job.bytes job.encoding (mark.length + position.byteOffset) := by
  have hverdict : (extractor.extractFile job).verdict = .invalidUtf8 := by
    rw [h]
    rfl
  obtain ⟨profile, hprofile, encoding, mark, content, hread⟩ :=
    exists_readAs_of_verdict hverdict (by decide)
  rcases encoding.decode_cases content with ⟨hutf16, hmalformed, -⟩ | ⟨-, text, hdecode⟩
  · have hother := (verdict_eq_malformed_iff hprofile hread).mpr ⟨hutf16, hmalformed⟩
    cases hverdict.symm.trans hother
  · obtain ⟨hlarge, hutf8⟩ := verdict_of_text hprofile hread hdecode
    have hfits : text.length ≤ 0xFFFFFFFF := by
      rw [← Nat.not_lt, ← hlarge, hverdict]
      exact Verdict.noConfusion
    obtain ⟨rfl, -⟩ := (hutf8 hfits).1.mp hverdict
    obtain rfl : content = text := Except.ok.inj hdecode
    have hzero : Position.zero.byteOffset + content.length = content.length := Nat.zero_add _
    obtain ⟨front, hfront, fault, hresult⟩ :=
      Source.exists_ofBytes_eq job.origin (hzero.symm ▸ hfits)
    rw [extractFile_of_readAs hprofile hread, hdecode] at h
    dsimp only at h
    by_cases hwhole : Utf8.encode front = content
    · rw [hresult, if_pos hwhole] at h
      cases h
    · rw [hresult, if_neg hwhole] at h
      obtain ⟨-, rfl, -⟩ := SourceError.invalidUtf8.inj
        (ExtractError.source.inj (Except.error.inj h))
      have hoffset : (Position.zero.advanceText front).byteOffset = (Utf8.encode front).length := by
        rw [Position.byteOffset_advanceText, Utf8.length_encode]
        exact Nat.zero_add _
      have hlt : (Utf8.encode front).length < content.length :=
        Nat.lt_of_le_of_ne hfront.isPrefix.length_le (mt hfront.isPrefix.eq_of_length hwhole)
      refine ⟨mark, content, hread, mark, content, front, hread, hfront, ?_, ?_⟩
      · rw [hoffset]
        rfl
      · rw [hoffset, hread.append, List.length_append]
        omega

/-- **Where a file is said to be malformed.** The offset of a fault in UTF-16 is the index in the
file of the first byte that cannot be read. The position of a fault in UTF-8 has the index in what
stands behind the mark, so that it is the index in the file exactly if there is no mark. -/
theorem fault_offsets (extractor : Extractor) (job : Job) :
    (∀ origin encoding offset,
        extractor.extractFile job = .error (.malformed origin encoding offset) →
          encoding.FaultAt job.bytes job.encoding offset)
      ∧ ∀ origin position length,
        extractor.extractFile job = .error (.source (.invalidUtf8 origin position length)) →
          ∃ mark content, Encoding.utf8.ReadAs job.bytes job.encoding mark content
            ∧ Encoding.utf8.FaultAt job.bytes job.encoding (mark.length + position.byteOffset)
            ∧ (Encoding.utf8.FaultAt job.bytes job.encoding position.byteOffset ↔ mark = []) := by
  refine ⟨fun _ _ _ ↦ faultAt_of_malformed, ?_⟩
  intro origin position length h
  obtain ⟨mark, content, hread, hfault⟩ := faultAt_of_invalidUtf8 h
  refine ⟨mark, content, hread, hfault, ?_⟩
  constructor
  · intro hplain
    have hsame := hplain.unique hfault
    exact List.eq_nil_of_length_eq_zero (by omega)
  · rintro rfl
    rw [List.length_nil, Nat.zero_add] at hfault
    exact hfault

/-- Half of a surrogate pair behind a mark and a letter, and a byte that is never UTF-8 behind a
letter. -/
theorem fault_offsets_behind_letter :
    let profile : Profile := ⟨"go", "Go", [], []⟩
    let extractor : Extractor := ⟨.ofProfiles [profile], {}⟩
    let wide : Job := ⟨⟨"a"⟩, [0xFF, 0xFE, 0x61, 0x00, 0x00, 0xDC], some "go", none⟩
    let plain : Job := ⟨⟨"a"⟩, [0x61, 0xFF], some "go", none⟩
    (extractor.extractFile wide = .error (.malformed ⟨"a"⟩ .utf16le 4)
        ∧ Encoding.utf16le.FaultAt wide.bytes wide.encoding 4)
      ∧ extractor.extractFile plain = .error (.source (.invalidUtf8 ⟨"a"⟩ ⟨0, 1, 1⟩ 1))
      ∧ ∃ mark content, Encoding.utf8.ReadAs plain.bytes plain.encoding mark content
        ∧ Encoding.utf8.FaultAt plain.bytes plain.encoding (mark.length + 1)
        ∧ (Encoding.utf8.FaultAt plain.bytes plain.encoding 1 ↔ mark = []) := by
  intro profile extractor wide plain
  have hprofile : ∀ job : Job, job.language = some "go" →
      extractor.resolveLanguage job = .ok profile := by
    intro job hjob
    simp [extractor, hjob, profile, resolveLanguage, Registry.get?, Registry.ofProfiles,
      Std.HashMap.getElem_insertIfNew]
  have hwide : extractor.extractFile wide = .error (.malformed ⟨"a"⟩ .utf16le 4) := by
    rw [extractFile, hprofile wide rfl]
    decide +kernel +zetaReduce
  have hplain : extractor.extractFile plain
      = .error (.source (.invalidUtf8 ⟨"a"⟩ ⟨0, 1, 1⟩ 1)) := by
    rw [extractFile, hprofile plain rfl]
    decide +kernel +zetaReduce
  exact ⟨⟨hwide, (fault_offsets extractor wide).1 _ _ _ hwide⟩,
    hplain, (fault_offsets extractor plain).2 _ _ _ hplain⟩

/-- A letter and a byte that is never UTF-8, behind a mark: the byte is the fifth of the file, and
the error says that it is the second. -/
theorem utf8_fault_misplaced_behind_mark :
    let profile : Profile := ⟨"go", "Go", [], []⟩
    let extractor : Extractor := ⟨.ofProfiles [profile], {}⟩
    let job : Job := ⟨⟨"a"⟩, [0xEF, 0xBB, 0xBF, 0x61, 0xFF], some "go", none⟩
    ∃ position length,
      extractor.extractFile job = .error (.source (.invalidUtf8 ⟨"a"⟩ position length))
        ∧ Encoding.utf8.FaultAt job.bytes job.encoding 4
        ∧ position.byteOffset = 1
        ∧ ¬Encoding.utf8.FaultAt job.bytes job.encoding position.byteOffset := by
  intro profile extractor job
  have hprofile : extractor.resolveLanguage job = .ok profile := by
    simp [extractor, job, profile, resolveLanguage, Registry.get?, Registry.ofProfiles,
      Std.HashMap.getElem_insertIfNew]
  have hextract : extractor.extractFile job
      = .error (.source (.invalidUtf8 ⟨"a"⟩ ⟨0, 1, 1⟩ 1)) := by
    rw [extractFile, hprofile]
    decide +kernel +zetaReduce
  have hread : Encoding.utf8.ReadAs job.bytes job.encoding [0xEF, 0xBB, 0xBF] [0x61, 0xFF] :=
    Encoding.readAs_of_choose (show Encoding.choose job.bytes job.encoding = .ok (.utf8, 3) by
      decide +kernel +zetaReduce)
  have hfront : (Utf8.decode [0x61, 0xFF]).text = ['a'] := by
    decide +kernel
  have hfault : Encoding.utf8.FaultAt job.bytes job.encoding 4 :=
    ⟨_, _, ['a'], hread, hfront ▸ Utf8.isLongestFront_decode _, by decide, by decide⟩
  refine ⟨⟨0, 1, 1⟩, 1, hextract, hfault, rfl, ?_⟩
  intro hone
  exact absurd (hone.unique hfault) (by decide)

end Extractor

end CommentBlocks
