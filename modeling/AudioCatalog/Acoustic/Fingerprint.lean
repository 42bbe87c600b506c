import AudioCatalog.Acoustic.Key

/-!
# Fingerprints of decoded audio

A fingerprinter is fed with the upper sixteen bits of the samples, packet by packet and
only up to a number of seconds.  It accepts or refuses the layout of a recording when
the first packet comes; after a refusal nothing more is fed.
-/

namespace AudioCatalog

/-- What makes fingerprints: the layouts it accepts, by rate and channels, and the words
of some samples. -/
structure Fingerprinter where
  accepts : UInt32 → UInt16 → Bool
  words : UInt32 → UInt16 → List Int16 → List UInt32

/-- How far feeding has got. -/
inductive FeedState where
  | idle
  /-- The layout was accepted. -/
  | running (rate : UInt32) (channels : UInt16) (remaining taken : Nat)
  | rejected
  deriving DecidableEq

/-- A fingerprinter that is being fed: its state and the packets passed on, the last one
first. -/
structure FingerprintFeed where
  state : FeedState
  passed : List (List Int16)

/-- The upper half of a sample. -/
def upperHalf (sample : Int32) : Int16 :=
  Int16.ofInt (sample.toInt / 65536)

/-- The number of samples in some seconds, kept to 64 bits. -/
def sampleBudget (seconds rate : UInt32) (channels : UInt16) : Nat :=
  seconds.toNat * rate.toNat * channels.toNat % 18446744073709551616

namespace FingerprintFeed

/-- A feed before the first packet. -/
def start : FingerprintFeed :=
  ⟨.idle, []⟩

/-- Passes on what the budget allows of a packet, if that is anything. -/
def pass (feed : FingerprintFeed) (rate : UInt32) (channels : UInt16)
    (remaining taken : Nat) (packet : List Int32) : FingerprintFeed :=
  let front := packet.take remaining
  ⟨.running rate channels (remaining - front.length) (taken + front.length),
    if front = [] then feed.passed else front.map upperHalf :: feed.passed⟩

/-- Takes a packet of a recording.  The first one decides about the layout. -/
def take (feed : FingerprintFeed) (printer : Fingerprinter) (seconds rate : UInt32)
    (channels : UInt16) (packet : List Int32) : FingerprintFeed :=
  match feed.state with
  | .idle =>
    if printer.accepts rate channels then
      feed.pass rate channels (sampleBudget seconds rate channels) 0 packet
    else { feed with state := .rejected }
  | .running rate channels remaining taken =>
    feed.pass rate channels remaining taken packet
  | .rejected => feed

/-- The samples passed on so far, in their order. -/
def samples (feed : FingerprintFeed) : List Int16 :=
  feed.passed.reverse.flatten

/-- How many samples were passed on. -/
def taken (feed : FingerprintFeed) : Nat :=
  match feed.state with
  | .running _ _ _ taken => taken
  | .idle | .rejected => 0

/-- The fingerprint, if there is one: a refused layout and samples without words have
none. -/
def words? (feed : FingerprintFeed) (printer : Fingerprinter) : Option (List UInt32) :=
  match feed.state with
  | .running rate channels _ _ =>
    let words := printer.words rate channels feed.samples
    if words = [] then none else some words
  | .idle | .rejected => none

end FingerprintFeed

end AudioCatalog
