import AudioCatalog.Proofs.Number.LittleEndian
import AudioCatalog.Proofs.Results
import AudioCatalog.Wave.File

/-!
# Reading what was written

A reader that finds what it looks for at the front gives that and leaves the rest.  So do the
reader of a heading, in a container that has room for its chunk, and the search for a container
that begins at once.
-/

namespace AudioCatalog

namespace Wave

theorem run_readBytes {bytes : List UInt8} {count : Nat} (hlength : bytes.length = count)
    (rest : List UInt8) : (readBytes count).run (bytes ++ rest) = .ok (bytes, rest) := by
  have hcount : count ≤ (bytes ++ rest).length := by
    rw [List.length_append]
    omega
  show readBytes count (bytes ++ rest) = _
  rw [readBytes, if_pos hcount, List.take_left' hlength, List.drop_left' hlength]

theorem run_readNumber (width number : Nat) (rest : List UInt8) :
    (readNumber width).run (numberBytes width number ++ rest) =
      .ok (number % 256 ^ width, rest) := by
  rw [readNumber, StateT.run_bind, run_readBytes (length_numberBytes width number), ok_bind,
    ofLittleEndian_numberBytes]
  rfl

/-- A length that a container can have fits its field. -/
theorem mod_of_le_unknownLength {length : Nat} (h : length ≤ unknownLength) :
    length % 256 ^ 4 = length := by
  apply Nat.mod_eq_of_lt
  simp only [unknownLength] at h
  omega

/-- A heading is read where there is room for its chunk, which is then claimed. -/
theorem ChunkCursor.run_next {cursor : ChunkCursor} {name : Tag} {length : Nat}
    (hname : name.length = 4) (heven : cursor.claimed % 2 = 0)
    (hroom : cursor.claimed + 8 + length ≤ cursor.length) (hlimit : cursor.length ≤ unknownLength)
    (rest : List UInt8) :
    cursor.next.run (name ++ (numberBytes 4 length ++ rest)) =
      .ok ((some ⟨name, length⟩, { cursor with claimed := cursor.claimed + 8 + length }),
        rest) := by
  have hnumber : length % 256 ^ 4 = length := mod_of_le_unknownLength (by omega)
  have hfits : ¬ cursor.length < cursor.claimed + 8 := by omega
  have hwhole : ¬ (cursor.length - (cursor.claimed + 8) < length ∧
      ¬ (cursor.length = unknownLength ∧ length = unknownLength)) := by omega
  have hclaimed : min (cursor.claimed + 8 + length) unknownLength = cursor.claimed + 8 + length :=
    Nat.min_eq_left (Nat.le_trans hroom hlimit)
  rw [next, align]
  simp only [StateT.run_bind, heven, if_true, StateT.run_pure, pure_bind, ok_bind, hfits,
    if_false, run_readBytes hname, run_readNumber, hnumber, hwhole, hclaimed]
  rfl

section Chunks

variable {cursor : ChunkCursor} {length : Nat} (heven : cursor.claimed % 2 = 0)
  (hroom : cursor.claimed + 8 + length ≤ cursor.length) (hlimit : cursor.length ≤ unknownLength)
  (limit : Nat) (heading : WaveHeading) (rest : List UInt8)

include heven hroom hlimit

/-- At the data chunk the reading of chunks ends. -/
theorem run_readChunks_data :
    (readChunks (limit + 1) cursor heading).run
        (tag "data" ++ (numberBytes 4 length ++ rest)) = .ok ((heading, length), rest) := by
  have hname : (tag "data").length = 4 := by decide
  rw [readChunks, StateT.run_bind, ChunkCursor.run_next hname heven hroom hlimit, ok_bind]
  rfl

/-- A format chunk that can be read is noted, and the reading of chunks goes on. -/
theorem run_readChunks_format {fields : List UInt8} {format : WaveFormat}
    (hformat : (readFormat length).run (fields ++ rest) = .ok (format, rest)) :
    (readChunks (limit + 1) cursor heading).run
        (tag "fmt " ++ (numberBytes 4 length ++ (fields ++ rest))) =
      (readChunks limit { cursor with claimed := cursor.claimed + 8 + length }
        { heading with format := some (format.replacing heading.format) }).run rest := by
  have hname : (tag "fmt ").length = 4 := by decide
  have hdata : tag "fmt " ≠ tag "data" := by decide
  rw [readChunks, StateT.run_bind, ChunkCursor.run_next hname heven hroom hlimit, ok_bind]
  simp only [if_neg hdata, if_true, StateT.run_bind, hformat, ok_bind]

end Chunks

/-- A marker at the beginning is found, if enough bytes follow it. -/
theorem findMarker_riff (places : Nat) {rest : List UInt8} (hlength : 12 ≤ rest.length) :
    findMarker (places + 1) (tag "RIFF" ++ rest) = .ok (.container, rest) := by
  have htag : tag "RIFF" = [82, 73, 70, 70] := by decide
  have hcould : couldBegin 82 73 = true := by decide
  have hwindow : ¬ (82 :: 73 :: (70 :: 70 :: rest).take (markerWindow - 2)).length <
      markerWindow := by
    simp only [markerWindow, List.length_cons, List.length_take]
    omega
  have hmarkers : markers = (tag "RIFF", .container) :: markers.tail := rfl
  rw [htag, List.cons_append, List.cons_append, findMarker, if_pos hcould]
  simp only [List.cons_append, List.nil_append, if_neg hwindow]
  rw [hmarkers, List.find?_cons_of_pos]
  · rw [htag]
    rfl
  · rw [htag]
    rfl

/-- A container that begins at once is found. -/
theorem findContainer_riff (blocks : Nat) {rest : List UInt8} (hlength : 12 ≤ rest.length) :
    findContainer blocks (tag "RIFF" ++ rest) = .ok rest := by
  rw [findContainer.eq_def]
  have hplaces : searchLimit - 1 = 1048574 + 1 := rfl
  rw [hplaces, findMarker_riff 1048574 hlength]
  rfl

end Wave

end AudioCatalog
