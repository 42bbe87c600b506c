import AudioCatalog.Digest.Sha256

/-!
# Hashing in pieces

A hasher that takes a message in pieces of any length holds what it would hold had it taken them
at once: complete blocks are compressed as soon as they are there, and what is left waits for the
next piece.  So the hash depends on the message alone and not on where it was cut.
-/

namespace AudioCatalog.Sha256

/-- The first complete block is compressed. -/
theorem absorb_of_le {bytes : List UInt8} (h : 64 ≤ bytes.length) (chain : Chain) :
    absorb chain bytes = absorb (compress chain (bytes.take 64)) (bytes.drop 64) := by
  rw [absorb, if_neg]
  rw [List.isEmpty_iff, List.drop_eq_nil_iff]
  omega

/-- Bytes that come later are absorbed behind what was left. -/
theorem absorb_append (chain : Chain) (bytes later : List UInt8) :
    absorb chain (bytes ++ later) =
      absorb (absorb chain bytes).1 ((absorb chain bytes).2 ++ later) := by
  fun_induction absorb chain bytes with
  | case1 chain bytes hshort => rfl
  | case2 chain bytes hblock ih =>
      rw [List.isEmpty_iff, List.drop_eq_nil_iff] at hblock
      have hlength : 64 ≤ bytes.length := by omega
      have hlonger : 64 ≤ (bytes ++ later).length := by
        rw [List.length_append]
        omega
      rw [absorb_of_le hlonger, List.take_append_of_le_length hlength,
        List.drop_append_of_le_length hlength, ih]

namespace Hasher

/-- Two pieces are taken like one. -/
theorem update_update (hasher : Hasher) (first second : List UInt8) :
    (hasher.update first).update second = hasher.update (first ++ second) := by
  have happend := absorb_append hasher.chain (hasher.pending ++ first) second
  rw [List.append_assoc] at happend
  simp only [update, happend, List.length_append, Nat.add_assoc]

/-- A hash of a message that was taken as one piece is the hash of the message. -/
theorem finish_update_start (message : List UInt8) :
    (start.update message).finish = hash message := by
  have happend := absorb_append Chain.initial message (padding message.length)
  rw [hash, happend, finish]
  simp only [start, update, List.nil_append, Nat.zero_add]

/-- The three letters of the standard's first example, in two pieces. -/
example : ((start.update [0x61]).update [0x62, 0x63]).finish =
    ⟨0xba7816bf, 0x8f01cfea, 0x414140de, 0x5dae2223,
      0xb00361a3, 0x96177a9c, 0xb410ff61, 0xf20015ad⟩ := by
  decide +kernel

/-- The fifty-six letters of its second example, whose padding takes a block of its own. -/
example :
    hash ("abcdbcdecdefdefgefghfghighijhijkijkljklmklmnlmnomnopnopq".toList.map fun letter =>
        UInt8.ofNat letter.toNat) =
      ⟨0x248d6a61, 0xd20638b8, 0xe5c02693, 0x0c3e6039,
        0xa33ce459, 0x64ff2167, 0xf6ecedd4, 0x19db06c1⟩ := by
  decide +kernel

end Hasher

end AudioCatalog.Sha256
