import AudioCatalog.Wave.Decoder
import Mathlib.Algebra.Group.Nat.Defs

/-!
# What a fingerprinter hears

A feed passes on the front of a recording that its budget allows, whatever the packets are that
the recording comes in.  Each packet takes from what is left of the budget, so the samples passed
on are always the front of all samples so far, and their number is that of these samples or the
budget.  The layout of the first packet decides; if it is refused, the feed stays silent.
-/

namespace AudioCatalog

/-! ## The upper half of a sample -/

/-- The upper half of a sample is made of its upper sixteen bits. -/
theorem toBitVec_upperHalf (sample : Int32) :
    (upperHalf sample).toBitVec = sample.toBitVec.extractLsb' 16 16 := by
  have hbits : (upperHalf sample).toBitVec =
      BitVec.ofInt 16 (sample.toBitVec.toInt / 65536) := rfl
  rw [hbits]
  apply BitVec.eq_of_toNat_eq
  rw [BitVec.toNat_ofInt, BitVec.extractLsb'_toNat, Nat.shiftRight_eq_div_pow,
    BitVec.toInt_eq_toNat_cond]
  split <;> omega

/-! ## Packets -/

/-- Decoded samples that come together, with the layout that they have. -/
structure Packet where
  rate : UInt32
  channels : UInt16
  samples : List Int32

namespace FingerprintFeed

/-- Takes packets one after the other. -/
def takeAll (feed : FingerprintFeed) (printer : Fingerprinter) (seconds : UInt32)
    (packets : List Packet) : FingerprintFeed :=
  packets.foldl
    (fun feed packet => feed.take printer seconds packet.rate packet.channels packet.samples) feed

/-- Whether a feed of an accepted layout has heard some samples within a budget. -/
structure Heard (feed : FingerprintFeed) (rate : UInt32) (channels : UInt16) (budget : Nat)
    (heard : List Int32) : Prop where
  state_eq : feed.state =
    .running rate channels (budget - heard.length) (min heard.length budget)
  samples_eq : feed.samples = (heard.take budget).map upperHalf

variable {feed : FingerprintFeed} {printer : Fingerprinter} {seconds rate : UInt32}
  {channels : UInt16} {budget : Nat} {heard : List Int32}

/-- What is passed on comes behind all that was passed on before. -/
theorem samples_pass (feed : FingerprintFeed) (rate : UInt32) (channels : UInt16)
    (remaining taken : Nat) (packet : List Int32) :
    (feed.pass rate channels remaining taken packet).samples =
      feed.samples ++ (packet.take remaining).map upperHalf := by
  simp only [pass, samples]
  split
  · rename_i hnone
    rw [hnone, List.map_nil, List.append_nil]
  · rw [List.reverse_cons, List.flatten_concat]

/-- To pass on what is left of the budget is to hear the packet behind the samples so far. -/
theorem heard_pass (rate : UInt32) (channels : UInt16)
    (hsamples : feed.samples = (heard.take budget).map upperHalf) (packet : List Int32) :
    (feed.pass rate channels (budget - heard.length) (min heard.length budget) packet).Heard rate
      channels budget (heard ++ packet) where
  state_eq := by
    simp only [pass, List.length_take, List.length_append]
    congr 1 <;> omega
  samples_eq := by
    rw [samples_pass, hsamples, ← List.map_append, ← List.take_append]

/-- A packet in any layout is heard behind the samples so far. -/
theorem Heard.take (hheard : feed.Heard rate channels budget heard) (printer : Fingerprinter)
    (seconds : UInt32) (packet : Packet) :
    (feed.take printer seconds packet.rate packet.channels packet.samples).Heard rate channels
      budget (heard ++ packet.samples) := by
  rw [FingerprintFeed.take, hheard.state_eq]
  exact heard_pass rate channels hheard.samples_eq packet.samples

theorem Heard.takeAll (hheard : feed.Heard rate channels budget heard) (printer : Fingerprinter)
    (seconds : UInt32) (packets : List Packet) :
    (feed.takeAll printer seconds packets).Heard rate channels budget
      (heard ++ packets.flatMap Packet.samples) := by
  induction packets generalizing feed heard with
  | nil =>
      rw [List.flatMap_nil, List.append_nil]
      exact hheard
  | cons packet packets ih =>
      rw [List.flatMap_cons, ← List.append_assoc]
      exact ih (hheard.take printer seconds packet)

/-- From a first packet of an accepted layout on, what has come is heard. -/
theorem heard_takeAll (first : Packet)
    (haccepts : printer.accepts first.rate first.channels = true) (seconds : UInt32)
    (packets : List Packet) :
    (start.takeAll printer seconds (first :: packets)).Heard first.rate first.channels
      (sampleBudget seconds first.rate first.channels)
      ((first :: packets).flatMap Packet.samples) := by
  have hfirst : (start.take printer seconds first.rate first.channels first.samples).Heard
      first.rate first.channels (sampleBudget seconds first.rate first.channels)
      first.samples := by
    have hnothing : start.samples =
        (List.take (sampleBudget seconds first.rate first.channels) []).map upperHalf := by
      rw [List.take_nil]
      rfl
    have hpassed := heard_pass first.rate first.channels hnothing first.samples
    simp only [List.length_nil, Nat.sub_zero, Nat.zero_min, List.nil_append] at hpassed
    have hstart : start.take printer seconds first.rate first.channels first.samples =
        start.pass first.rate first.channels (sampleBudget seconds first.rate first.channels) 0
          first.samples := if_pos haccepts
    rw [hstart]
    exact hpassed
  exact hfirst.takeAll printer seconds packets

/-- After a refusal packets of any layout change nothing. -/
theorem takeAll_of_rejected (hstate : feed.state = .rejected) (printer : Fingerprinter)
    (seconds : UInt32) (packets : List Packet) :
    feed.takeAll printer seconds packets = feed := by
  induction packets with
  | nil => rfl
  | cons packet packets ih =>
      have hkept : feed.take printer seconds packet.rate packet.channels packet.samples = feed := by
        rw [FingerprintFeed.take, hstate]
      rw [FingerprintFeed.takeAll, List.foldl_cons, hkept]
      exact ih

/-- A feed that is refused at the first packet. -/
theorem takeAll_of_refused {first : Packet}
    (hrefuses : printer.accepts first.rate first.channels = false) (seconds : UInt32)
    (packets : List Packet) :
    start.takeAll printer seconds (first :: packets) = ⟨.rejected, []⟩ := by
  have hfirst : start.take printer seconds first.rate first.channels first.samples =
      ⟨.rejected, []⟩ := by
    rw [FingerprintFeed.take]
    simp only [start, hrefuses, Bool.false_eq_true, if_false]
  rw [takeAll, List.foldl_cons, hfirst]
  exact takeAll_of_rejected rfl printer seconds packets

/-! ## Whole recordings -/

theorem sampleBudget_of_lt {seconds rate : UInt32} {channels : UInt16}
    (hlt : seconds.toNat * rate.toNat * channels.toNat < 2 ^ 64) :
    sampleBudget seconds rate channels = seconds.toNat * rate.toNat * channels.toNat :=
  Nat.mod_eq_of_lt hlt

/-- Two minutes of any layout can be counted. -/
theorem defaultSeconds_mul_lt (rate : UInt32) (channels : UInt16) :
    WaveDecoder.defaultSeconds.toNat * rate.toNat * channels.toNat < 2 ^ 64 := by
  have hrate : rate.toNat ≤ 2 ^ 32 := Nat.le_of_lt rate.toNat_lt
  have hchannels : channels.toNat ≤ 2 ^ 16 := Nat.le_of_lt channels.toNat_lt
  calc WaveDecoder.defaultSeconds.toNat * rate.toNat * channels.toNat
      ≤ 120 * 2 ^ 32 * 2 ^ 16 := Nat.mul_le_mul (Nat.mul_le_mul_left 120 hrate) hchannels
    _ < 2 ^ 64 := by decide

/-- The fingerprint is that of the samples heard, however they were cut into packets. -/
theorem Heard.words?_eq_some_iff (hheard : feed.Heard rate channels budget heard)
    (printer : Fingerprinter) (words : List UInt32) :
    feed.words? printer = some words ↔
      words ≠ [] ∧ words = printer.words rate channels ((heard.take budget).map upperHalf) := by
  rw [words?, hheard.state_eq]
  simp only [hheard.samples_eq]
  split
  · rename_i hsilent
    rw [hsilent]
    constructor
    · rintro ⟨⟩
    · rintro ⟨hsome, hnone⟩
      exact absurd hnone hsome
  · rename_i hsome
    constructor
    · rintro ⟨⟩
      exact ⟨hsome, rfl⟩
    · rintro ⟨-, rfl⟩
      rfl

/-- Of packets whose first one has a layout that the fingerprinter accepts, it is fed with the
upper sixteen bits of all samples in their order, up to the budget of that layout; two minutes
are never too much to count.  Of packets whose first one has a layout that it refuses, it is fed
with nothing, and there is no fingerprint. -/
theorem feeds_front_of_stream (printer : Fingerprinter) (seconds rate : UInt32)
    (channels : UInt16) (packets : List Packet)
    (hlayout : ∀ first ∈ packets.head?, first.rate = rate ∧ first.channels = channels) :
    let fed := start.takeAll printer seconds packets
    let stream := packets.flatMap Packet.samples
    let budget := seconds.toNat * rate.toNat * channels.toNat
    (printer.accepts rate channels = true → budget < 2 ^ 64 →
      fed.samples.map Int16.toBitVec =
        (stream.take budget).map (fun sample => sample.toBitVec.extractLsb' 16 16) ∧
      fed.taken = min stream.length budget) ∧
    (printer.accepts rate channels = false →
      fed.samples = [] ∧ fed.taken = 0 ∧ fed.words? printer = none) ∧
    (seconds = WaveDecoder.defaultSeconds → budget < 2 ^ 64) := by
  intro fed stream budget
  refine ⟨fun haccepts hlt => ?_, fun hrefuses => ?_, ?_⟩
  · cases packets with
    | nil =>
        have hnone : (List.take budget stream) = [] := List.take_nil
        rw [hnone]
        exact ⟨rfl, (Nat.zero_min budget).symm⟩
    | cons first packets =>
        obtain ⟨rfl, rfl⟩ := hlayout first rfl
        have hheard := heard_takeAll first haccepts seconds packets
        rw [sampleBudget_of_lt hlt] at hheard
        constructor
        · rw [hheard.samples_eq, List.map_map]
          exact List.map_congr_left fun sample _ => toBitVec_upperHalf sample
        · rw [taken, hheard.state_eq]
  · cases packets with
    | nil => exact ⟨rfl, rfl, rfl⟩
    | cons first packets =>
        obtain ⟨rfl, rfl⟩ := hlayout first rfl
        have hsilent : fed = ⟨.rejected, []⟩ := takeAll_of_refused hrefuses seconds packets
        rw [hsilent]
        exact ⟨rfl, rfl, rfl⟩
  · rintro rfl
    exact defaultSeconds_mul_lt rate channels

/-- One second of two channels at 8000 Hz is 16000 samples.  The last two of them come in two
packets after an empty one, and what follows them is left out. -/
theorem feeds_front_of_stereo_second :
    let printer : Fingerprinter :=
      ⟨fun rate channels => 1000 < rate ∧ 0 < channels, fun _ _ _ => []⟩
    let packets : List Packet :=
      [⟨8000, 2, List.replicate 15998 0x10000⟩, ⟨8000, 2, []⟩, ⟨8000, 2, [-0x10000]⟩,
        ⟨8000, 2, [0x70000, 0x80000]⟩]
    let fed := start.takeAll printer 1 packets
    fed.samples.map Int16.toBitVec = List.replicate 15998 1 ++ [-1, 7] ∧ fed.taken = 16000 := by
  intro printer packets fed
  obtain ⟨hsamples, htaken⟩ := (feeds_front_of_stream printer 1 8000 2 packets
    (by rintro first ⟨⟩; exact ⟨rfl, rfl⟩)).1 rfl (by decide)
  -- The whole stream is one sample longer than the budget.
  have hstream : packets.flatMap Packet.samples =
      List.replicate 15998 0x10000 ++ [-0x10000, 0x70000, 0x80000] := rfl
  have hbudget : (1 : UInt32).toNat * (8000 : UInt32).toNat * (2 : UInt16).toNat = 16000 := rfl
  rw [hstream, hbudget] at hsamples htaken
  constructor
  · rw [hsamples, List.take_append, List.take_replicate, List.length_replicate, List.map_append,
      List.map_replicate]
    rfl
  · rw [htaken, List.length_append, List.length_replicate]
    rfl

end FingerprintFeed

/-! ## Decoded packets -/

namespace WaveDecoder

variable (decoder : WaveDecoder) (rate : UInt32) (channels : UInt16)

theorem fingerprint_eq (packets : List (List Int32)) :
    decoder.fingerprint rate channels packets =
      (FingerprintFeed.start.takeAll decoder.printer decoder.seconds
        (packets.map (Packet.mk rate channels))).words? decoder.printer := by
  rw [fingerprint, FingerprintFeed.takeAll, List.foldl_map]

/-- The fingerprint that a decoder gives does not depend on how the samples were cut into
packets, if there are any. -/
theorem fingerprint_congr {packets others : List (List Int32)} (hsome : packets ≠ [])
    (hothers : others ≠ []) (hsame : packets.flatten = others.flatten) :
    decoder.fingerprint rate channels packets = decoder.fingerprint rate channels others := by
  obtain ⟨first, rest, rfl⟩ := List.exists_cons_of_ne_nil hsome
  obtain ⟨other, remaining, rfl⟩ := List.exists_cons_of_ne_nil hothers
  rw [fingerprint_eq, fingerprint_eq, List.map_cons, List.map_cons]
  cases haccepts : decoder.printer.accepts rate channels with
  | false =>
      rw [FingerprintFeed.takeAll_of_refused haccepts, FingerprintFeed.takeAll_of_refused haccepts]
  | true =>
      have hheard := FingerprintFeed.heard_takeAll ⟨rate, channels, first⟩ haccepts
        decoder.seconds (rest.map (Packet.mk rate channels))
      have hother := FingerprintFeed.heard_takeAll ⟨rate, channels, other⟩ haccepts
        decoder.seconds (remaining.map (Packet.mk rate channels))
      have hsamples : ∀ cut : List (List Int32),
          (cut.map (Packet.mk rate channels)).flatMap Packet.samples = cut.flatten := by
        intro cut
        rw [List.flatMap_map]
        exact List.flatMap_id
      rw [← List.map_cons (f := Packet.mk rate channels), hsamples] at hheard hother
      rw [← hsame] at hother
      apply Option.ext
      intro words
      exact (hheard.words?_eq_some_iff decoder.printer words).trans
        (hother.words?_eq_some_iff decoder.printer words).symm

end WaveDecoder

end AudioCatalog
