import AudioCatalog.Proofs.Results
import AudioCatalog.Wave.File

/-!
# Samples and packets

Samples are read one after the other, so that reading some and then more is reading them all.
Packets are cut where frames end; their samples in order are therefore those of the whole, and
it does not matter how many blocks a packet can have.
-/

namespace AudioCatalog

namespace SampleFormat

variable (format : SampleFormat)

theorem length_samples (count : Nat) (bytes : List UInt8) :
    (format.samples count bytes).length = count := by
  induction count generalizing bytes with
  | zero => rfl
  | succ count ih => rw [samples, List.length_cons, ih]

theorem samples_add (first second : Nat) (bytes : List UInt8) :
    format.samples (first + second) bytes =
      format.samples first bytes ++ format.samples second (bytes.drop (first * format.width)) := by
  induction first generalizing bytes with
  | zero => rw [Nat.zero_add, Nat.zero_mul, List.drop_zero, samples, List.nil_append]
  | succ first ih =>
      rw [Nat.succ_add, samples, samples, ih, List.drop_drop, List.cons_append, Nat.succ_mul,
        Nat.add_comm format.width]

/-- Bytes behind the samples make no difference. -/
theorem samples_append {count : Nat} {bytes : List UInt8}
    (henough : count * format.width ≤ bytes.length) (rest : List UInt8) :
    format.samples count (bytes ++ rest) = format.samples count bytes := by
  induction count generalizing bytes with
  | zero => rfl
  | succ count ih =>
      rw [Nat.succ_mul] at henough
      have hone : format.width ≤ bytes.length := by omega
      have hmore : count * format.width ≤ (bytes.drop format.width).length := by
        rw [List.length_drop]
        omega
      rw [samples, samples, List.take_append_of_le_length hone,
        List.drop_append_of_le_length hone, ih hmore]

/-- Samples that were written one after the other are read one after the other. -/
theorem samples_flatMap {α : Type} {write : α → List UInt8}
    (hwidth : ∀ value, (write value).length = format.width) (values : List α)
    (rest : List UInt8) :
    format.samples values.length (values.flatMap write ++ rest) =
      values.map fun value => format.sample (write value) := by
  induction values with
  | nil => rfl
  | cons value values ih =>
      rw [List.length_cons, List.flatMap_cons, List.append_assoc, samples, List.map_cons,
        List.take_left' (hwidth value), List.drop_left' (hwidth value), ih]

end SampleFormat

namespace WaveFile

variable {format : WaveFormat}

/-- A packet of whole frames, not too many of them, is decoded whole. -/
theorem decodePacket_take (hframe : 0 < format.frameBytes) {blocks : Nat} {bytes : List UInt8}
    (hlimit : blocks ≤ packetLimit) (henough : blocks * format.frameBytes ≤ bytes.length) :
    decodePacket format (bytes.take (blocks * format.frameBytes)) =
      format.sampleFormat.samples (blocks * format.channels) bytes := by
  have hlength : (bytes.take (blocks * format.frameBytes)).length = blocks * format.frameBytes := by
    rw [List.length_take, Nat.min_eq_left henough]
  have hsamples : blocks * format.channels * format.sampleFormat.width =
      (bytes.take (blocks * format.frameBytes)).length := by
    rw [hlength, WaveFormat.frameBytes, Nat.mul_assoc]
  have hwhole := format.sampleFormat.samples_append (Nat.le_of_eq hsamples)
    (bytes.drop (blocks * format.frameBytes))
  rw [List.take_append_drop] at hwhole
  rw [decodePacket, hlength, Nat.mul_div_cancel _ hframe, Nat.min_eq_left hlimit, hwhole]

/-- The samples of all packets are those of all blocks, in order. -/
theorem flatten_packets (hframe : 0 < format.frameBytes) {blocks : Nat} {bytes : List UInt8}
    (henough : blocks * format.frameBytes ≤ bytes.length) :
    ((packets format.frameBytes blocks bytes).map (decodePacket format)).flatten =
      format.sampleFormat.samples (blocks * format.channels) bytes := by
  fun_induction packets format.frameBytes blocks bytes with
  | case1 blocks bytes hend =>
      have hnone : blocks = 0 := by
        rcases hend with hzero | rfl
        · exact hzero
        · have hzero : blocks * format.frameBytes = 0 := Nat.le_zero.mp henough
          exact (Nat.mul_eq_zero.mp hzero).resolve_right (Nat.ne_of_gt hframe)
      rw [hnone, Nat.zero_mul]
      rfl
  | case2 blocks bytes hmore size ih =>
      -- A packet now, and the blocks that are left afterwards.
      have hsplit : blocks = min blocks packetLimit + (blocks - packetLimit) := by omega
      have hbytes : blocks * format.frameBytes =
          size + (blocks - packetLimit) * format.frameBytes := by
        rw [← Nat.add_mul, ← hsplit]
      have hrest : (blocks - packetLimit) * format.frameBytes ≤ (bytes.drop size).length := by
        rw [List.length_drop]
        omega
      have hpacket : decodePacket format (bytes.take size) =
          format.sampleFormat.samples (min blocks packetLimit * format.channels) bytes :=
        decodePacket_take hframe (Nat.min_le_right ..) (by omega)
      have hsize : size = min blocks packetLimit * format.channels * format.sampleFormat.width := by
        rw [Nat.mul_assoc]
        rfl
      rw [List.map_cons, List.flatten_cons, ih hrest, hpacket, hsize,
        ← format.sampleFormat.samples_add, ← Nat.add_mul, ← hsplit]

/-- A file with whole frames, as many as it claims, is decoded to all samples. -/
theorem exists_decode {file : WaveFile} {count : Nat}
    (halign : file.format.blockAlign = file.format.frameBytes)
    (hframe : 0 < file.format.frameBytes)
    (hlength : file.dataLength = count * file.format.frameBytes) (hcount : count ≠ 0)
    (henough : file.dataLength ≤ file.data.length) :
    ∃ decoded, file.decode = .ok decoded ∧
      decoded.flatten = file.format.sampleFormat.samples (count * file.format.channels)
        file.data := by
  have hchannels : file.format.channels ≠ 0 := by
    intro hnone
    rw [WaveFormat.frameBytes, hnone, Nat.zero_mul] at hframe
    exact Nat.lt_irrefl 0 hframe
  have hframes : file.frameCount = count := by
    rw [frameCount, halign, hlength, Nat.mul_div_cancel _ hframe]
  have hflatten := flatten_packets hframe (hlength ▸ henough)
  have hsome : ¬ ((packets file.format.frameBytes count file.data).map
      (decodePacket file.format)).all List.isEmpty = true := by
    intro hempty
    have hnil := List.flatten_eq_nil_iff.mpr fun packet hpacket =>
      List.isEmpty_iff.mp (List.all_eq_true.mp hempty packet hpacket)
    have hsamples := file.format.sampleFormat.length_samples (count * file.format.channels)
      file.data
    rw [← hflatten, hnil, List.length_nil] at hsamples
    rcases Nat.mul_eq_zero.mp hsamples.symm with hzero | hzero
    · exact hcount hzero
    · exact hchannels hzero
  refine ⟨_, ?_, hflatten⟩
  rw [decode, if_neg hchannels, if_neg (halign ▸ Nat.ne_of_gt hframe)]
  simp only [halign, hframes, if_neg hsome]

end WaveFile

end AudioCatalog
