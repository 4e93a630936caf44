import CommentBlocks.Proofs.LineEntries
import CommentBlocks.Proofs.SeekPoints

/-!
# Resuming a scan

A part of a document is scanned by itself, with the position it begins at. When the part begins at a
seek point of the scan of the whole, nothing is lost: the two scans agree from there on, and what
the whole scan recorded is what it had recorded so far, with the blocks of the part put over it.

Since a survey depends on its place alone, all there is to show is that the part of the document is
a source whose first place is the seek point, and that recording in two parts is recording at once.
-/

namespace CommentBlocks

namespace Source

/-! ## Parts of a source -/

theorem ofBytes_encode {text : Text} (origin : Origin) {start : Position}
    (hfits : start.byteOffset + text.byteLength ≤ maxOffset) :
    ofBytes (Utf8.encode text) origin start = .ok ⟨text, origin, start⟩ := by
  rw [ofBytes, Utf8.length_encode, if_neg (Nat.not_lt.mpr hfits), Utf8.decode_encode]
  rfl

variable (source : Source)

theorem byteLength_take_add_drop (index : Nat) :
    Text.byteLength (source.text.take index) + Text.byteLength (source.text.drop index)
      = source.text.byteLength := by
  rw [← Text.byteLength_append, List.take_append_drop]

theorem drop_bytes (index : Nat) :
    source.bytes.drop ((source.positionAt index).byteOffset - source.start.byteOffset)
      = Utf8.encode (source.text.drop index) := by
  rw [byteOffset_positionAt, Nat.add_sub_cancel_left, bytes]
  nth_rewrite 2 [← List.take_append_drop index source.text]
  exact Utf8.drop_encode_append _ _

theorem ofBytes_drop_bytes (index : Nat)
    (hfits : source.start.byteOffset + source.text.byteLength ≤ maxOffset) :
    ofBytes (source.bytes.drop ((source.positionAt index).byteOffset - source.start.byteOffset))
        source.origin (source.positionAt index)
      = .ok ⟨source.text.drop index, source.origin, source.positionAt index⟩ := by
  rw [drop_bytes, ofBytes_encode]
  rw [byteOffset_positionAt, Nat.add_assoc, byteLength_take_add_drop]
  exact hfits

/-! ## The scan of a part -/

/-- **A scan may be resumed at any seek point.** The part of the document from there on makes a
source with the same origin. Its scan stops where the scan of the whole does. The blocks of the
whole are in ascending order of lines, and the block on a line is the one of the part, or else the
one that was recorded before the seek point. -/
theorem scan_resumes (profile : Profile) (config : ScanConfig)
    (hfits : source.start.byteOffset + source.text.byteLength ≤ maxOffset)
    {found : List Comment} {place : Place}
    (hseek : Reaches profile.blocks source.cursor.here found place) :
    ∃ part, ofBytes (source.bytes.drop (place.position.byteOffset - source.start.byteOffset))
        source.origin place.position = .ok part
      ∧ (part.scan profile config).unterminated = (source.scan profile config).unterminated
      ∧ Ascending (source.scan profile config).blocks
      ∧ ∀ line, blockOn? (source.scan profile config).blocks line
        = (blockOn? (part.scan profile config).blocks line).or
          (blockOn? (recordedBlocks config source.origin found) line) := by
  obtain ⟨index, -, rfl⟩ := hseek.exists_index source
  refine ⟨_, source.ofBytes_drop_bytes index hfits, ?_, ?_, ?_⟩
  · rw [scan, scan, hseek.survey_eq]
    rfl
  · exact ascending_recordedBlocks _ _ _
  · intro line
    rw [scan_blocks, scan_blocks, hseek.survey_eq]
    exact blockOn?_recordedBlocks_append _ _ _ _ _

/-- Two comments on one line: the scan from behind the first finds the second, which counts. -/
theorem scan_resumes_between_comments :
    let profile : Profile := ⟨"x", "X", [], [.comment "/*" "*/"]⟩
    let source : Source := ⟨"/*one*//*two*/".toList, ⟨"a"⟩, .zero⟩
    ∃ part, ofBytes (source.bytes.drop 7) ⟨"a"⟩ ⟨0, 7, 7⟩ = .ok part
      ∧ ∀ line, blockOn? (source.scan profile ⟨0⟩).blocks line
        = (blockOn? (part.scan profile ⟨0⟩).blocks line).or
          (blockOn? [⟨⟨"a"⟩, 1, "one".toList⟩] line) := by
  intro profile source
  have hturn : source.cursor.here.turn profile.blocks
      = .moved (some ⟨.zero, ["one".toList]⟩) ⟨⟨0, 7, 7⟩, "/*two*/".toList⟩ := by
    decide +kernel +zetaReduce
  have hrecorded : recordedBlocks ⟨0⟩ source.origin [⟨.zero, ["one".toList]⟩]
      = [⟨⟨"a"⟩, 1, "one".toList⟩] := by
    decide +kernel +zetaReduce
  obtain ⟨part, hpart, -, -, hblocks⟩ :=
    source.scan_resumes profile ⟨0⟩ (by decide) (Reaches.start.turn hturn)
  refine ⟨part, hpart, ?_⟩
  intro line
  rw [hblocks line, ← hrecorded]
  rfl

end Source

end CommentBlocks
