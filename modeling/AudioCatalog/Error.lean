import AudioCatalog.Catalog.Fault
import AudioCatalog.Catalog.Ids
import AudioCatalog.Digest.Basic
import AudioCatalog.FileSystem.Error
import AudioCatalog.Text.Quoted
import AudioCatalog.Time.Span

/-!
# Errors

Every operation of the catalog that can fail does so with an `Error`, which
names the cause; `Error.message` words it.
-/

namespace AudioCatalog

/-- Why a recording could not be decoded. -/
inductive DecodeFault where
  | unreadable (text : String)
  | unsupported (what : String)
  | corrupt (text : String)
  | timeout (limit : Span)

/-- The wording of a decoding error. -/
def DecodeFault.message : DecodeFault → String
  | unreadable text => s!"unreadable file: {text}"
  | unsupported what => s!"unsupported format: {what}"
  | corrupt text => s!"corrupt stream: {text}"
  | timeout limit => s!"decoder timed out after {limit.text}"

/-- Why a path name cannot be catalogued. -/
inductive PathFault where
  /-- It is not text; what can be shown of it is. -/
  | notText (shown : String)
  | blank
  | holdsNul (text : String)
  /-- The file it leads to is left alone. -/
  | refused (shown reason : String)
  /-- A fault that is known by its wording only. -/
  | other (text : String)

/-- The wording of a fault. -/
def PathFault.message : PathFault → String
  | notText shown => s!"{shown} is not valid UTF-8"
  | blank => "empty path"
  | holdsNul text => s!"{quoted text} contains a NUL byte"
  | refused shown reason => s!"{shown}: {reason}"
  | other text => text

/-- Why an operation failed. -/
inductive Error where
  | decode (cause : DecodeFault)
  | conflict (digest : Digest)
  | store (fault : StoreFault)
  | newerVersion (found supported : Int)
  | unknownIdentity (id : IdentityId)
  | unknownTicket (id : TicketId)
  | badPath (fault : PathFault)
  | cancelled
  | incompleteBatch (failed total : Nat)
  | io (cause : FileError)
  | serialization (text : String)
  | csv (cause : FileError)

/-- The wording of an error. -/
def Error.message : Error → String
  | decode cause => s!"Decode error: {cause.message}"
  | conflict digest => s!"Exact digest {digest.hex} is already catalogued"
  | store fault => s!"Catalog store unavailable: {fault.message}"
  | newerVersion found supported =>
    s!"Catalog schema version {found} is newer than supported version {supported}"
  | unknownIdentity id => s!"Unknown identity: {id.label}"
  | unknownTicket id => s!"Unknown catalog ticket: {id.label}"
  | badPath fault => s!"Invalid path: {fault.message}"
  | cancelled => "Import cancelled"
  | incompleteBatch failed total =>
    s!"{failed} of {total} catalog tickets failed to import"
  | io cause => s!"IO error: {cause.message}"
  | serialization text => s!"Metadata serialization error: {text}"
  | csv cause => s!"CSV error: {cause.message}"

end AudioCatalog
