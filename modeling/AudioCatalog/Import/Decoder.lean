import AudioCatalog.Error
import AudioCatalog.FileSystem.Basic
import AudioCatalog.Metadata.Basic
import AudioCatalog.Pcm.Basic

/-!
# Decoders

A decoder turns a file into a recording and describes how it sounds.  All it sees of a file is its
path name and what opening it gives, so an unchanged file is answered for in the
same way.  A decoder may also stop without an answer or never answer; the caller
waits for a limited time.
-/

namespace AudioCatalog

/-- A decoded file. -/
structure Recording where
  metadata : Metadata
  /-- The words of the fingerprint; a recording that is too short has none. -/
  fingerprint : Option (List UInt32)
  stream : PcmStream

/-- How a call of a decoder ends. -/
inductive Analysis where
  | answered (recording : Recording)
  | failed (cause : DecodeFault)
  /-- It stopped without an answer. -/
  | stopped
  /-- It does not end. -/
  | unending

/-- A decoder, for files with databases of type `κ` among them. -/
abbrev Decoder (κ : Type) := Pathname → Except FileError (Body κ) → Analysis

/-- What a caller gets who waits for a limited time.  Nothing is answered in no time at
all. -/
def Analysis.within (limit : Span) (analysis : Analysis) : Except DecodeFault Recording :=
  if limit.isZero then .error (.timeout limit)
  else match analysis with
    | answered recording => .ok recording
    | failed cause => .error cause
    | stopped => .error (.corrupt "decoder stopped without a result")
    | unending => .error (.timeout limit)

end AudioCatalog
