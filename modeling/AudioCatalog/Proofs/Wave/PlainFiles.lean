import AudioCatalog.Proofs.Pcm.Message
import AudioCatalog.Proofs.Wave.Packets
import AudioCatalog.Proofs.Wave.Reading
import AudioCatalog.Wave.Standard
import Mathlib.Algebra.Group.Int.Defs

/-!
# Plain files of one recording

Sixteen-bit samples can be written to a wave file with sixteen bits each, or with twenty-four
or thirty-two, of which they then fill the upper ones.  Whichever width is chosen, the decoder
reads the same samples from the file, and the digest is that of the sixteen-bit samples.
-/

namespace AudioCatalog

/-- Numbers that differ by a multiple of 2³² are the same sample. -/
theorem ofInt_eq_of_dvd_sub {a b : Int} (h : 4294967296 ∣ a - b) :
    Int32.ofInt a = Int32.ofInt b := by
  obtain ⟨turns, hturns⟩ := h
  have hsum : a = b + 4294967296 * turns := by omega
  have hturn : Int32.ofInt 4294967296 = 0 := by decide
  rw [hsum, Int32.ofInt_add, Int32.ofInt_mul, hturn, Int32.zero_mul, Int32.add_zero]

/-- The widths in which sixteen-bit samples can be written without a loss. -/
inductive BitDepth where
  | sixteen
  | twentyFour
  | thirtyTwo
  deriving DecidableEq

namespace BitDepth

/-- The number of bytes of a sample. -/
def bytes : BitDepth → Nat
  | sixteen => 2
  | twentyFour => 3
  | thirtyTwo => 4

/-- The format that a reader takes the samples for. -/
def format : BitDepth → SampleFormat
  | sixteen => .signed16
  | twentyFour => .signed24
  | thirtyTwo => .signed32

/-- The bytes of a sixteen-bit sample: it is shifted to the upper end of the width, and
negative ones are written as their remainders. -/
def write (depth : BitDepth) (sample : Int16) : List UInt8 :=
  numberBytes depth.bytes
    (sample.toInt * 256 ^ (depth.bytes - 2) % 256 ^ depth.bytes).toNat

example : twentyFour.write (-2) = [0, 254, 255] := by
  decide

theorem width_format (depth : BitDepth) : depth.format.width = depth.bytes := by
  cases depth <;> rfl

theorem ofIntegerBits?_bytes (depth : BitDepth) :
    SampleFormat.ofIntegerBits? (8 * depth.bytes) = some depth.format := by
  cases depth <;> rfl

/-- A sample that was written in any width is read in the upper half of 32 bits. -/
theorem sample_write (depth : BitDepth) (sample : Int16) :
    depth.format.sample (depth.write sample) = Int32.ofInt (sample.toInt * 65536) := by
  have hvalue : ofLittleEndian (depth.write sample) =
      (sample.toInt * 256 ^ (depth.bytes - 2) % 256 ^ depth.bytes).toNat := by
    rw [write, ofLittleEndian_numberBytes]
    apply Nat.mod_eq_of_lt
    cases depth <;> simp only [bytes] <;> omega
  rw [SampleFormat.sample.eq_def, hvalue]
  cases depth with
  | sixteen | twentyFour | thirtyTwo =>
      apply ofInt_eq_of_dvd_sub
      simp only [bytes, Int.ofNat_eq_natCast]
      omega

end BitDepth

/-- A recording of sixteen-bit samples, of which every channel has as many. -/
structure Track where
  channels : Nat
  rate : UInt32
  samples : List Int16
  channels_pos : 0 < channels
  channels_le : channels ≤ Wave.channelLimit
  rate_ne_zero : rate ≠ 0
  samples_ne_nil : samples ≠ []
  whole : channels ∣ samples.length

namespace Track

open Wave

variable (track : Track) (depth : BitDepth) (trailer : List UInt8)

/-- The recording as a stream of sixteen-bit samples. -/
def stream : PcmStream :=
  ⟨track.rate, UInt16.ofNat track.channels, .int16 track.samples⟩

/-- The bytes of a frame. -/
def frameBytes : Nat :=
  track.channels * depth.bytes

/-- The bytes of all samples. -/
def data : List UInt8 :=
  track.samples.flatMap depth.write

/-- What a format chunk says: integers, the channels, the rate, the bytes of a second and of a
frame, and the bits of a sample. -/
def formatFields : List UInt8 :=
  numberBytes 2 1 ++ (numberBytes 2 track.channels ++ (numberBytes 4 track.rate.toNat ++
    (numberBytes 4 (track.rate.toNat * track.frameBytes depth) ++
      (numberBytes 2 (track.frameBytes depth) ++ numberBytes 2 (8 * depth.bytes)))))

/-- What a container counts as its length. -/
def containerLength : Nat :=
  36 + (track.data depth).length + trailer.length

/-- The format chunk and the data chunk, and what follows. -/
def chunks : List UInt8 :=
  tag "fmt " ++ (numberBytes 4 16 ++ (track.formatFields depth ++
    (tag "data" ++ (numberBytes 4 (track.data depth).length ++
      (track.data depth ++ trailer)))))

/-- The plain wave file of a recording.  Something may follow the samples, such as padding. -/
def file : List UInt8 :=
  tag "RIFF" ++ (numberBytes 4 (track.containerLength depth trailer) ++
    (tag "WAVE" ++ track.chunks depth trailer))

/-- What a reader finds at the beginning of the format chunk. -/
def formatStart : FormatStart where
  formatTag := 1
  channels := track.channels
  rate := track.rate.toNat
  blockAlign := track.frameBytes depth
  bits := 8 * depth.bytes

/-- The format that a reader finds. -/
def format : WaveFormat where
  sampleFormat := depth.format
  channels := track.channels
  rate := track.rate
  blockAlign := track.frameBytes depth
  validBits := some (8 * depth.bytes)

/-- What a reader knows of the file when it has got to the samples. -/
def waveFile : WaveFile where
  format := track.format depth
  tags := .empty
  dataLength := (track.data depth).length
  data := track.data depth ++ trailer

theorem length_data : (track.data depth).length = track.samples.length * depth.bytes := by
  have hwidth : ∀ sample, (depth.write sample).length = depth.bytes :=
    fun sample => length_numberBytes ..
  rw [data, List.length_flatMap, List.map_congr_left fun sample _ => hwidth sample,
    List.map_const', List.sum_replicate_nat]

theorem channels_lt : track.channels < 65536 :=
  Nat.lt_of_le_of_lt track.channels_le (by decide)

theorem frameBytes_lt : track.frameBytes depth < 65536 := by
  have hchannels := track.channels_le
  simp only [channelLimit] at hchannels
  cases depth <;> simp only [frameBytes, BitDepth.bytes] <;> omega

theorem run_readFormatStart (rest : List UInt8) :
    readFormatStart.run (track.formatFields depth ++ rest) =
      .ok (track.formatStart depth, rest) := by
  have hchannels : track.channels % 256 ^ 2 = track.channels := Nat.mod_eq_of_lt track.channels_lt
  have hrate : track.rate.toNat % 256 ^ 4 = track.rate.toNat := Nat.mod_eq_of_lt track.rate.toNat_lt
  have hframe : track.frameBytes depth % 256 ^ 2 = track.frameBytes depth :=
    Nat.mod_eq_of_lt (track.frameBytes_lt depth)
  have hbits : 8 * depth.bytes % 256 ^ 2 = 8 * depth.bytes := by
    cases depth <;> rfl
  rw [readFormatStart, formatFields]
  simp only [List.append_assoc, StateT.run_bind, run_readNumber, ok_bind, hchannels, hrate, hframe,
    hbits]
  rfl

/-- The rest of the format chunk is empty, and the format is what the fields say. -/
theorem run_readPlainFormat (rest : List UInt8) :
    (readPlainFormat .integer (track.formatStart depth) 16).run rest =
      .ok (track.format depth, rest) := by
  have hchannels : ¬ (track.channels = 0 ∨ channelLimit < track.channels) :=
    not_or.mpr ⟨Nat.ne_of_gt track.channels_pos, Nat.not_lt.mpr track.channels_le⟩
  have hsamples : sampleFormat? .integer (8 * depth.bytes) = some depth.format :=
    depth.ofIntegerBits?_bytes
  have hskip : (skipPlainRest .integer (track.formatStart depth) 16).run rest =
      .ok ((), rest) := rfl
  have hrate : UInt32.ofNat track.rate.toNat = track.rate := UInt32.ofNat_toNat
  rw [readPlainFormat, StateT.run_bind, hskip, ok_bind]
  simp only [formatStart, hsamples, reduceCtorEq, false_and, if_false, hchannels, if_true,
    FormatStart.format, hrate]
  rfl

theorem run_readFormat (rest : List UInt8) :
    (readFormat 16).run (track.formatFields depth ++ rest) = .ok (track.format depth, rest) := by
  have htag : (track.formatStart depth).formatTag = 1 := rfl
  have hfamily : plainFamily? 1 = some .integer := rfl
  have hrate : ¬ (track.format depth).rate = 0 := track.rate_ne_zero
  rw [readFormat]
  simp only [Nat.lt_irrefl, if_false, StateT.run_bind, run_readFormatStart, ok_bind, htag,
    hfamily, Nat.reduceEqDiff, run_readPlainFormat, hrate]
  rfl

variable {trailer} in
/-- The chunks are read up to the samples. -/
theorem run_readChunks (hfits : track.containerLength depth trailer ≤ unknownLength)
    (limit : Nat) :
    (readChunks (limit + 2) (.start (track.containerLength depth trailer)) ⟨none, none⟩).run
        (track.chunks depth trailer) =
      .ok ((⟨some (track.format depth), none⟩, (track.data depth).length),
        track.data depth ++ trailer) := by
  have heven : 24 % 2 = 0 := rfl
  have hroom : 0 + 8 + 16 ≤ track.containerLength depth trailer := by
    rw [containerLength]
    omega
  have hmore : 24 + 8 + (track.data depth).length ≤ track.containerLength depth trailer := by
    rw [containerLength]
    omega
  have hdata : (readChunks (limit + 1) ⟨track.containerLength depth trailer, 24⟩
      ⟨some ((track.format depth).replacing none), none⟩).run
        (tag "data" ++ (numberBytes 4 (track.data depth).length ++
          (track.data depth ++ trailer))) = _ :=
    run_readChunks_data heven hmore hfits limit _ _
  have hformat : (readChunks (limit + 2) (.start (track.containerLength depth trailer))
      ⟨none, none⟩).run (track.chunks depth trailer) = _ :=
    run_readChunks_format (Nat.zero_mod 2) hroom hfits (limit + 1) _ _
      (track.run_readFormat depth _)
  exact hformat.trans hdata

variable {trailer} in
/-- The file is read up to its samples. -/
theorem parse_file (hfits : track.containerLength depth trailer ≤ unknownLength) :
    WaveFile.parse (track.file depth trailer) = .ok (track.waveFile depth trailer) := by
  have hform : (tag "WAVE").length = 4 := by decide
  have hnumber := mod_of_le_unknownLength hfits
  have hchunks : 8 ≤ (track.chunks depth trailer).length := by
    have hname : (tag "fmt ").length = 4 := by decide
    simp only [chunks, List.length_append, hname, length_numberBytes]
    omega
  have hlength : 12 ≤ (numberBytes 4 (track.containerLength depth trailer) ++
      (tag "WAVE" ++ track.chunks depth trailer)).length := by
    simp only [List.length_append, hform, length_numberBytes]
    omega
  obtain ⟨limit, hlimit⟩ : ∃ limit, (track.chunks depth trailer).length = limit + 2 :=
    ⟨_, (Nat.sub_add_cancel (by omega)).symm⟩
  have hread : readContainer.run (numberBytes 4 (track.containerLength depth trailer) ++
      (tag "WAVE" ++ track.chunks depth trailer)) =
        .ok ((⟨some (track.format depth), none⟩, (track.data depth).length),
          track.data depth ++ trailer) := by
    rw [readContainer]
    simp only [StateT.run_bind, run_readNumber, ok_bind, hnumber, run_readBytes hform, ne_eq,
      not_true, if_false, StateT.run_get]
    rw [← track.run_readChunks depth hfits limit, ← hlimit]
    rfl
  rw [WaveFile.parse, file, findContainer_riff _ hlength, ok_bind, hread, ok_bind]
  rfl

/-- The samples are decoded in order, and nothing behind them is. -/
theorem exists_decode :
    ∃ decoded, (track.waveFile depth trailer).decode = .ok decoded ∧
      decoded.flatten = track.samples.map fun sample => Int32.ofInt (sample.toInt * 65536) := by
  obtain ⟨frames, hframes⟩ := track.whole
  have hwidth : ∀ sample, (depth.write sample).length = depth.format.width := by
    intro sample
    rw [depth.width_format]
    exact length_numberBytes ..
  have hbytes : (track.waveFile depth trailer).format.frameBytes = track.frameBytes depth := by
    rw [WaveFormat.frameBytes, frameBytes, ← depth.width_format]
    rfl
  have hpos : 0 < (track.waveFile depth trailer).format.frameBytes := by
    rw [hbytes, frameBytes]
    apply Nat.mul_pos track.channels_pos
    cases depth <;> decide
  have hlength : (track.waveFile depth trailer).dataLength =
      frames * (track.waveFile depth trailer).format.frameBytes := by
    rw [hbytes, frameBytes, ← Nat.mul_assoc, Nat.mul_comm frames, ← hframes]
    exact track.length_data depth
  have hsome : frames ≠ 0 := by
    rintro rfl
    exact track.samples_ne_nil (List.length_eq_zero_iff.mp hframes)
  have henough : (track.waveFile depth trailer).dataLength ≤
      (track.waveFile depth trailer).data.length := by
    simp [waveFile]
  obtain ⟨decoded, hdecoded, hflatten⟩ :=
    WaveFile.exists_decode hbytes.symm hpos hlength hsome henough
  refine ⟨decoded, hdecoded, ?_⟩
  have hcount : frames * (track.waveFile depth trailer).format.channels =
      track.samples.length := by
    rw [hframes, Nat.mul_comm]
    rfl
  rw [hflatten, hcount]
  exact (depth.format.samples_flatMap hwidth track.samples trailer).trans
    (List.map_congr_left fun sample _ => depth.sample_write sample)

end Track

/-- A plain file is decoded, whatever the width of its samples: to as many samples as were
written, in order, with their rate and channels, and with the digest of the sixteen-bit
samples. -/
theorem WaveDecoder.exists_answered (wave : WaveDecoder) {κ : Type} (path : Pathname)
    (track : Track) (depth : BitDepth) {trailer : List UInt8}
    (hfits : track.containerLength depth trailer < 4294967296) {body : Body κ}
    (hbody : body.toList = track.file depth trailer) :
    ∃ recording, wave.decoder path (.ok body) = .answered recording ∧
      recording.stream.rate = track.rate ∧
      recording.stream.channels.toNat = track.channels ∧
      recording.stream.samples =
        .int32 (track.samples.map fun sample => Int32.ofInt (sample.toInt * 65536)) ∧
      recording.stream.samples.length = track.samples.length ∧
      recording.stream.digest = track.stream.digest := by
  obtain ⟨decoded, hdecoded, hflatten⟩ := track.exists_decode depth trailer
  obtain ⟨recording, hrecording, hstream⟩ : ∃ recording,
      wave.decode path body.toList = .ok recording ∧ recording.stream =
        ⟨track.rate, UInt16.ofNat track.channels, .int32 decoded.flatten⟩ := by
    rw [hbody, decode, track.parse_file depth (Nat.le_of_lt_succ hfits), ok_bind, hdecoded, ok_bind]
    exact ⟨_, rfl, rfl⟩
  have hanswered : wave.decoder path (.ok body) = .answered recording := by
    rw [decoder]
    simp only [hrecording, analysis]
  rw [hflatten] at hstream
  refine ⟨recording, hanswered, ?_⟩
  rw [hstream]
  refine ⟨rfl, ?_, rfl, List.length_map .., PcmStream.digest_congr rfl rfl rfl⟩
  exact Nat.mod_eq_of_lt track.channels_lt

/-- Three samples of one channel. -/
def Track.pulse : Track where
  channels := 1
  rate := 22050
  samples := [1, -1, 0]
  channels_pos := by decide
  channels_le := by decide
  rate_ne_zero := by decide
  samples_ne_nil := by decide
  whole := by decide

/-- Three samples of twenty-four bits are nine bytes, and a byte of padding follows them. -/
theorem WaveDecoder.exists_answered_pulse :
    Track.pulse.containerLength .twentyFour [0] < 4294967296 ∧
    ∃ recording, standard.decoder ⟨[47, 97]⟩
        (.ok (.data (Track.pulse.file .twentyFour [0]) 0 : Body Unit)) = .answered recording ∧
      recording.stream.rate = 22050 ∧
      recording.stream.channels.toNat = 1 ∧
      recording.stream.samples = .int32 [65536, -65536, 0] ∧
      recording.stream.samples.length = 3 ∧
      recording.stream.digest = Track.pulse.stream.digest := by
  have hfits : Track.pulse.containerLength .twentyFour [0] < 4294967296 := by decide
  have hbody : (.data (Track.pulse.file .twentyFour [0]) 0 : Body Unit).toList =
      Track.pulse.file .twentyFour [0] := by
    decide
  exact ⟨hfits, standard.exists_answered _ Track.pulse .twentyFour hfits hbody⟩

end AudioCatalog
