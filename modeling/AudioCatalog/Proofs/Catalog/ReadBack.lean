import AudioCatalog.Catalog.Transaction
import AudioCatalog.Proofs.Metadata.RoundTrip
import AudioCatalog.Proofs.Number.LittleEndian
import AudioCatalog.Proofs.Text.Utf8

/-!
# Rows read back

Rows that commits write can be read, and say what was written.  Times past the calendar
are read as the epoch, and everything else as it is.
-/

namespace AudioCatalog

/-! ## Acoustic keys -/

namespace AcousticKey

/-- A stored key is read back as it was. -/
theorem ofStored?_stored (key : AcousticKey) :
    ofStored? key.stored (UInt32.ofNat key.frames) = some key := by
  have hframes : (UInt32.ofNat key.frames).toNat = key.frames :=
    UInt32.toNat_ofNat_of_lt' key.frames_lt
  have hlength : key.stored.length = 1024 := by
    rw [stored, length_flatMap_littleEndian32, key.length_eq]
  have hpos : UInt32.ofNat key.frames ≠ 0 := by
    intro hzero
    rw [hzero] at hframes
    exact Nat.ne_of_gt key.frames_pos hframes.symm
  rw [ofStored?, dif_pos ⟨hlength, hpos⟩]
  cases key
  simp only [stored, littleEndianWords_flatMap, hframes]

end AcousticKey

/-! ## Rows of identities -/

theorem Digest.ofBytes?_bytes (digest : Digest) : ofBytes? digest.bytes = some digest := by
  rw [ofBytes?, dif_pos digest.length_eq]

namespace IdentityRow

theorem key?_ofDraft (draft : Draft) (now : Timestamp) :
    (ofDraft draft now).key? = .ok draft.key := by
  rw [key?]
  cases hkey : draft.key with
  | none =>
      simp only [ofDraft, hkey]
      rfl
  | some key =>
      have hlt := key.frames_lt
      have hrange : 0 ≤ Int.ofNat key.frames ∧ Int.ofNat key.frames < 4294967296 :=
        ⟨Int.natCast_nonneg _, Int.ofNat_lt.mpr key.frames_lt⟩
      have hframes : (Int.ofNat key.frames).toNat = key.frames := rfl
      have hread := key.ofStored?_stored
      simp only [ofDraft, hkey, Cell.toUInt32?, Cell.toBytes?, if_pos hrange, hframes]
      simp only [ok_bind, hread]
      rfl

/-- The identity that a row stands for, read without its sources. -/
def written (draft : Draft) (now : Timestamp) (id : IdentityId) : Identity where
  id := id
  digest := draft.digest
  key := draft.key
  metadata := draft.metadata
  createdAt := Timestamp.ofStored now
  sources := []

theorem read_ofDraft (draft : Draft) (now : Timestamp) (id : Int) :
    (ofDraft draft now).read id = .ok (written draft now ⟨id⟩) := by
  have hkey := key?_ofDraft draft now
  have hdigest := Digest.ofBytes?_bytes draft.digest
  have hmetadata := Metadata.parse?_print draft.metadata
  rw [read, hkey]
  simp only [ofDraft, Cell.toBytes, Cell.toText, Cell.toInt, ok_bind, hdigest, hmetadata]
  rfl

end IdentityRow

/-! ## Rows of sources -/

theorem Route.ofLabel?_label (route : Route) : ofLabel? route.label = some route := by
  cases route <;> rfl

theorem toNat_storedSize_emod (size : UInt64) :
    (storedSize size % 18446744073709551616).toNat = size.toNat := by
  have hlt : size.toNat < 18446744073709551616 := size.toNat_lt
  have hsize : storedSize size =
      if (size.toNat : Int) < 9223372036854775808 then (size.toNat : Int)
      else size.toNat - 18446744073709551616 := rfl
  rw [hsize]
  split
  · omega
  · omega

theorem sizeOfStored_storedSize (size : UInt64) : sizeOfStored (storedSize size) = size := by
  rw [sizeOfStored, toNat_storedSize_emod, UInt64.ofNat_toNat]

/-- Equal stored sizes are of equal sizes. -/
theorem storedSize_injective {a b : UInt64} (h : storedSize a = storedSize b) : a = b := by
  rw [← sizeOfStored_storedSize a, h, sizeOfStored_storedSize]

/-- A source as it is read again: times past the calendar count as the epoch. -/
def Source.asStored (source : Source) : Source :=
  { source with importedAt := Timestamp.ofStored source.importedAt }

theorem SourceRow.read_ofSource {source : Source} {path : String}
    (hpath : source.path.text? = some path) (id : IdentityId) :
    (ofSource id path source).read = .ok source.asStored := by
  have hkept : (if source.kept then (1 : Int) else 0) ≠ 0 ↔ source.kept = true := by
    cases source.kept <;> decide
  rw [read]
  simp only [ofSource, Cell.toText, Cell.toInt, ok_bind, Route.ofLabel?_label,
    sizeOfStored_storedSize, Pathname.ofText_of_text? hpath]
  simp [hkept, Source.asStored]
  rfl

end AudioCatalog
