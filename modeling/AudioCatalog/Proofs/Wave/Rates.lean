import AudioCatalog.Proofs.Results
import AudioCatalog.Wave.File

/-!
# Sample rates of wave files

A format chunk without a sample rate stops the reading of a wave file, and no other chunk says
anything about the rate.  So a wave file that can be read has one.
-/

namespace AudioCatalog

namespace Wave

variable {α β : Type}

/-- Whether all that a reader gives has a property, whatever it reads. -/
def Reader.Yields (reader : Reader α) (property : α → Prop) : Prop :=
  ∀ ⦃bytes : List UInt8⦄ ⦃a : α⦄ ⦃rest : List UInt8⦄,
    reader.run bytes = .ok (a, rest) → property a

namespace Reader.Yields

variable {property : β → Prop}

theorem pure {b : β} (h : property b) : Yields (Pure.pure b) property := by
  intro bytes a rest hrun
  cases hrun
  exact h

theorem throw (fault : WaveFault) : Yields (throw fault) property := by
  intro bytes a rest hrun
  cases hrun

/-- After a first step it is the second that counts, which knows what the first has given. -/
theorem bind {first : α → Prop} {x : Reader α} {f : α → Reader β} (hx : Yields x first)
    (hf : ∀ a, first a → Yields (f a) property) : Yields (x >>= f) property := by
  intro bytes b rest hrun
  rw [StateT.run_bind] at hrun
  obtain ⟨⟨a, left⟩, ha, hrun⟩ := bind_eq_ok_iff.mp hrun
  exact hf a (hx ha) hrun

theorem anything (reader : Reader α) : Yields reader fun _ => True :=
  fun _ _ _ _ => trivial

theorem after {x : Reader α} {f : α → Reader β} (hf : ∀ a, Yields (f a) property) :
    Yields (x >>= f) property :=
  (anything x).bind fun a _ => hf a

end Reader.Yields

/-- Whether the format that is noted, if there is one, has a sample rate. -/
def WaveHeading.Rated (heading : WaveHeading) : Prop :=
  ∀ format ∈ heading.format, format.rate ≠ 0

/-- A format chunk that can be read has a sample rate. -/
theorem yields_readFormat (length : Nat) :
    (readFormat length).Yields fun format => format.rate ≠ 0 := by
  have hlast (format : WaveFormat) : Reader.Yields
      (if format.rate = 0 then (throw .noRate : Reader PUnit) >>= fun _ => pure format
        else pure format)
      fun format => format.rate ≠ 0 := by
    split
    · exact .throw _
    · rename_i hrate
      exact .pure hrate
  rw [readFormat]
  split
  · exact .throw _
  · refine .after fun start => ?_
    dsimp only
    split
    · exact .after hlast
    · split
      · exact .after hlast
      · exact .throw _

/-- A list chunk says nothing about the format. -/
theorem yields_readList {heading : WaveHeading} (length : Nat) (hrated : heading.Rated) :
    (readList heading length).Yields WaveHeading.Rated := by
  rw [readList]
  split
  · exact .throw _
  · refine .after fun form => ?_
    dsimp only
    split
    · exact .after fun tags => .pure hrated
    · exact .after fun _ => .pure hrated

/-- Whichever chunks are read, the format that is noted has a sample rate. -/
theorem yields_readChunks (limit : Nat) (cursor : ChunkCursor) {heading : WaveHeading}
    (hrated : heading.Rated) :
    (readChunks limit cursor heading).Yields fun read => read.1.Rated := by
  induction limit generalizing cursor heading with
  | zero => exact .throw _
  | succ limit ih =>
      rw [readChunks]
      refine .after fun next => ?_
      split
      · exact .throw _
      · split
        · exact .pure hrated
        split
        · refine .bind (yields_readFormat _) fun format hrate => ih _ ?_
          intro noted hnoted
          cases hnoted
          exact hrate
        split
        · split
          · exact .throw _
          · exact .after fun _ => ih _ hrated
        split
        · exact .bind (yields_readList _ hrated) fun _ hlist => ih _ hlist
        · exact .after fun _ => ih _ hrated

/-- What the chunks of a container say has a sample rate, if they have a format at all. -/
theorem yields_readContainer : readContainer.Yields fun read => read.1.Rated := by
  have hnothing : WaveHeading.Rated ⟨none, none⟩ := by
    rintro format ⟨⟩
  rw [readContainer]
  refine .after fun length => .after fun form => ?_
  split
  · exact .throw _
  · exact .after fun bytes => yields_readChunks _ _ hnothing

end Wave

/-- A wave file that can be read has a sample rate. -/
theorem WaveFile.rate_ne_zero_of_parse {bytes : List UInt8} {file : WaveFile}
    (h : parse bytes = .ok file) : file.format.rate ≠ 0 := by
  rw [parse] at h
  obtain ⟨container, -, h⟩ := bind_eq_ok_iff.mp h
  obtain ⟨⟨⟨heading, dataLength⟩, data⟩, hrun, h⟩ := bind_eq_ok_iff.mp h
  have hrated : heading.Rated := Wave.yields_readContainer hrun
  dsimp only at h
  split at h
  · cases h
  · rename_i format hformat
    cases h
    exact hrated format hformat

end AudioCatalog
