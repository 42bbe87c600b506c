import AudioCatalog.Proofs.Digest.Streaming
import AudioCatalog.Proofs.Number.LittleEndian
import AudioCatalog.Proofs.Pcm.Canonical

/-!
# What a digest covers

The digest of a recording is the hash of one byte string, however many buffers it takes to hash
the samples.  The byte string is a tag, the rate, the channel count and the samples, each in a
field of fixed width, so that it can be taken apart again: two recordings have the same one
exactly if they have the same rate, the same channel count and the same canonical samples.
-/

namespace AudioCatalog

namespace PcmStream

/-! ## Hashing a buffer at a time -/

/-- Samples that are hashed a buffer at a time are hashed behind what came before them. -/
theorem hashSamples_update (base : Sha256.Hasher) {hasher : Sha256.Hasher} {front : List UInt8}
    (samples : List Int32) (hfront : hasher = base.update front) :
    hashSamples hasher samples = base.update (front ++ samples.flatMap sampleBytes) := by
  fun_induction hashSamples hasher samples generalizing front with
  | case1 hasher => rw [hfront, List.flatMap_nil, List.append_nil]
  | case2 hasher sample rest ih =>
      rw [ih (by rw [hfront, Sha256.Hasher.update_update]), List.append_assoc,
        ← List.flatMap_append, List.take_append_drop]

/-- A digest is the hash of the message. -/
theorem digest_eq_hash (stream : PcmStream) :
    stream.digest = .ofChain (Sha256.hash stream.message) := by
  rw [digest, hashSamples_update Sha256.Hasher.start _ rfl, ← message,
    Sha256.Hasher.finish_update_start]

/-! ## The fields of a message -/

/-- The tag is ASCII: a byte for each letter. -/
theorem messageTag_eq :
    messageTag = "audiofs-pcm-v1".toList.map fun letter => UInt8.ofNat letter.toNat := by
  decide

/-- The bytes of a sample are those of its remainder by 2³². -/
theorem sampleBytes_eq (sample : Int32) :
    sampleBytes sample = numberBytes 4 (sample.toInt % 4294967296).toNat := by
  have hpattern : (sample.toBitVec.toInt % 4294967296).toNat = sample.toBitVec.toNat := by
    have hlt : sample.toBitVec.toNat < 4294967296 := sample.toBitVec.isLt
    rw [BitVec.toInt_eq_toNat_cond]
    split <;> omega
  rw [sampleBytes, littleEndian32_eq]
  exact congrArg (numberBytes 4) hpattern.symm

/-- A message is made of fields of fixed width, the lowest bytes first. -/
theorem message_eq (stream : PcmStream) :
    stream.message = messageTag ++ (numberBytes 4 stream.rate.toNat ++
      (numberBytes 2 stream.channels.toNat ++ stream.samples.canonical.flatMap fun sample =>
        numberBytes 4 (sample.toInt % 4294967296).toNat)) := by
  have hsamples : sampleBytes = fun sample =>
      numberBytes 4 (sample.toInt % 4294967296).toNat := funext sampleBytes_eq
  rw [message, header, littleEndian32_eq, littleEndian16_eq, hsamples, List.append_assoc,
    List.append_assoc]

/-- Samples can be told from their bytes. -/
theorem flatMap_sampleBytes_injective {a b : List Int32}
    (h : a.flatMap sampleBytes = b.flatMap sampleBytes) : a = b := by
  have hwords : ∀ samples : List Int32,
      littleEndianWords (samples.flatMap sampleBytes) = samples.map Int32.toUInt32 := by
    intro samples
    rw [← littleEndianWords_flatMap (samples.map Int32.toUInt32), List.flatMap_map]
    rfl
  have hsame := congrArg littleEndianWords h
  rw [hwords, hwords] at hsame
  exact (List.map_inj_right fun _ _ => congrArg Int32.ofUInt32).mp hsame

/-- Two recordings have the same message exactly if they have the same rate, channel count and
canonical samples. -/
theorem message_eq_iff {a b : PcmStream} :
    a.message = b.message ↔
      a.rate = b.rate ∧ a.channels = b.channels ∧ a.samples.canonical = b.samples.canonical := by
  constructor
  · intro h
    simp only [message, header, List.append_assoc] at h
    obtain ⟨hrate, h⟩ := List.append_inj (List.append_cancel_left h) rfl
    obtain ⟨hchannels, hsamples⟩ := List.append_inj h rfl
    refine ⟨?_, ?_, flatMap_sampleBytes_injective hsamples⟩
    · have hnumber := congrArg ofLittleEndian hrate
      rw [ofLittleEndian_littleEndian32, ofLittleEndian_littleEndian32] at hnumber
      exact UInt32.toNat_inj.mp hnumber
    · have hnumber := congrArg ofLittleEndian hchannels
      rw [ofLittleEndian_littleEndian16, ofLittleEndian_littleEndian16] at hnumber
      exact UInt16.toNat_inj.mp hnumber
  · rintro ⟨hrate, hchannels, hsamples⟩
    rw [message, message, header, header, hrate, hchannels, hsamples]

/-- What does not change the message does not change the digest. -/
theorem digest_congr {a b : PcmStream} (hrate : a.rate = b.rate)
    (hchannels : a.channels = b.channels) (hsamples : a.samples.canonical = b.samples.canonical) :
    a.digest = b.digest := by
  rw [digest_eq_hash, digest_eq_hash, message_eq_iff.mpr ⟨hrate, hchannels, hsamples⟩]

/-- A digest is the hash of one byte string: the letters of the tag, four bytes for the rate, two
for the channel count and four for each canonical sample in order, the lowest bytes first.  There
is one canonical sample for each sample of the recording, the one that it stands for in its
format.  Two recordings have the same byte string exactly if rate, channel count and canonical
samples are the same. -/
theorem digest_covers (stream : PcmStream) :
    stream.digest = .ofChain (Sha256.hash stream.message) ∧
      stream.message = ("audiofs-pcm-v1".toList.map fun letter => UInt8.ofNat letter.toNat) ++
        (numberBytes 4 stream.rate.toNat ++
          (numberBytes 2 stream.channels.toNat ++ stream.samples.canonical.flatMap fun sample =>
            numberBytes 4 (sample.toInt % 4294967296).toNat)) ∧
      stream.samples.canonical.length = stream.samples.length ∧
      stream.samples.StandsFor stream.samples.canonical ∧
      ∀ other : PcmStream, stream.message = other.message ↔
        stream.rate = other.rate ∧ stream.channels = other.channels ∧
          stream.samples.canonical = other.samples.canonical := by
  refine ⟨stream.digest_eq_hash, ?_, stream.samples.length_canonical,
    stream.samples.standsFor_canonical, fun _ => message_eq_iff⟩
  rw [message_eq, messageTag_eq]

end PcmStream

end AudioCatalog
