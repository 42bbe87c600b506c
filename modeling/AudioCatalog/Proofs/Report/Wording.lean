import AudioCatalog.Report.Batch
import AudioCatalog.Proofs.Text.Utf8

/-!
# The words for what happened

What the words and messages of imports are, kind by kind and letter by letter: `Says` relates what
happened to the text that tells of it, and a cause within a cause to the text within the text.
For each kind there is exactly one text, which is the one that the library writes.
-/

namespace AudioCatalog

/-! ## Words -/

/-- The word for a stage. -/
inductive Stage.Says : Stage → String → Prop
  | started : Says .started "started"
  | fingerprinted : Says .fingerprinted "fingerprinted"
  | resolved : Says .resolved "resolved"
  | committed : Says .committed "committed"

/-- The word for what a commit did. -/
inductive CommitEffect.Says : CommitEffect → String → Prop
  | inserted : Says .inserted "inserted"
  | attached : Says .attached "attached"

/-- The word for a kind of verdict. -/
inductive Verdict.Says : Verdict → String → Prop
  | new : Says .new "new"
  | exact (id : IdentityId) : Says (.exact id) "exact"
  | perceptual (id : IdentityId) (similarity : Rat) : Says (.perceptual id similarity) "perceptual"
  | ambiguous (candidates : List Candidate) : Says (.ambiguous candidates) "ambiguous"

/-- The name of a storage class. -/
inductive StorageClass.Says : StorageClass → String → Prop
  | null : Says .null "Null"
  | integer : Says .integer "Integer"
  | real : Says .real "Real"
  | text : Says .text "Text"
  | blob : Says .blob "Blob"

/-- What the detail of a commit is: nothing, or the number of its remarks. -/
inductive Remark.Says : List Remark → String → Prop
  | none : Says [] ""
  | some (remark : Remark) (rest : List Remark) :
      Says (remark :: rest) (toString (rest.length + 1) ++ " warning(s)")

/-- The reason for which a file was left alone. -/
inductive Rejection.Says : Rejection → String → Prop
  | notRegular : Says .notRegular "not a regular file"
  | emptyFile : Says .emptyFile "file is empty"
  | other (text : String) : Says (.other text) text

/-- How a path name is shown: as the text that it is, or with its broken parts replaced. -/
inductive Pathname.Says : Pathname → String → Prop
  | text {path : Pathname} {text : String} (h : path.bytes = Utf8.encode text) : Says path text
  | broken {path : Pathname} (h : ∀ text, path.bytes ≠ Utf8.encode text) :
      Says path (Utf8.decodeLossy path.bytes)

/-! ## Causes -/

/-- The message of a file operation that failed. -/
inductive FileError.Says : FileError → String → Prop
  | notFound : Says .notFound "No such file or directory (os error 2)"
  | alreadyExists : Says .alreadyExists "File exists (os error 17)"
  | notADirectory : Says .notADirectory "Not a directory (os error 20)"
  | isADirectory : Says .isADirectory "Is a directory (os error 21)"
  | nameTooLong : Says .nameTooLong "File name too long (os error 36)"
  | tooManyLinks : Says .tooManyLinks "Too many levels of symbolic links (os error 40)"
  | nulInName : Says .nulInName "file name contained an unexpected NUL byte"
  | other (text : String) : Says (.other text) text

/-- The message of a decoder that failed. -/
inductive DecodeFault.Says : DecodeFault → String → Prop
  | unreadable (text : String) : Says (.unreadable text) ("unreadable file: " ++ text)
  | unsupported (what : String) : Says (.unsupported what) ("unsupported format: " ++ what)
  | corrupt (text : String) : Says (.corrupt text) ("corrupt stream: " ++ text)
  | timeout (limit : Span) : Says (.timeout limit) ("decoder timed out after " ++ limit.text)

/-- The message of a path name that cannot be catalogued. -/
inductive PathFault.Says : PathFault → String → Prop
  | notText (shown : String) : Says (.notText shown) (shown ++ " is not valid UTF-8")
  | blank : Says .blank "empty path"
  | holdsNul (text : String) : Says (.holdsNul text) (quoted text ++ " contains a NUL byte")
  | refused (shown reason : String) : Says (.refused shown reason) (shown ++ ": " ++ reason)
  | other (text : String) : Says (.other text) text

/-- The message of a database that failed. -/
inductive StoreFault.Says : StoreFault → String → Prop
  | locked : Says .locked "database is locked"
  | cannotOpen (shown : String) :
      Says (.cannotOpen shown) ("unable to open database file: " ++ shown)
  | cannotOpenPart : Says .cannotOpenPart "unable to open database file"
  | brokenPart : Says .brokenPart "disk I/O error"
  | readOnly : Says .readOnly "attempt to write a readonly database"
  | full : Says .full "database or disk is full"
  | noTable (name : String) : Says (.noTable name) ("no such table: " ++ name)
  | foreignAuthority (shown : String) :
      Says (.foreignAuthority shown) ("invalid uri authority: " ++ shown)
  | unknownMode (kind shown : String) :
      Says (.unknownMode kind shown) ("no such " ++ kind ++ " mode: " ++ shown)
  | forbiddenMode (shown : String) :
      Says (.forbiddenMode shown) ("access mode not allowed: " ++ shown)
  | unknownLayer (shown : String) : Says (.unknownLayer shown) ("no such vfs: " ++ shown)
  | nulInPath (position : Nat) :
      Says (.nulInPath position)
        ("nul byte found in provided data at position: " ++ toString position)
  | notADatabase : Says .notADatabase "file is not a database"
  | wrongClass {found : StorageClass} {word : String} (column : Column) (h : found.Says word) :
      Says (.wrongClass found column)
        ("Invalid column type " ++ word ++ " at index: " ++ toString column.index ++ ", name: " ++
          column.name)
  | outOfRange (value : Int) (column : Column) :
      Says (.outOfRange value column)
        ("Integer " ++ toString value ++ " out of range at index " ++ toString column.index)
  | malformed {found : StorageClass} {word : String} (column : Column) (reason : String)
      (h : found.Says word) :
      Says (.malformed found column reason)
        ("Conversion error from type " ++ word ++ " at index: " ++ toString column.index ++ ", " ++
          reason)
  | other (text : String) : Says (.other text) text

/-- The message of an operation that failed. -/
inductive Error.Says : Error → String → Prop
  | decode {cause : DecodeFault} {text : String} (h : cause.Says text) :
      Says (.decode cause) ("Decode error: " ++ text)
  | conflict (digest : Digest) :
      Says (.conflict digest) ("Exact digest " ++ digest.hex ++ " is already catalogued")
  | store {fault : StoreFault} {text : String} (h : fault.Says text) :
      Says (.store fault) ("Catalog store unavailable: " ++ text)
  | newerVersion (found supported : Int) :
      Says (.newerVersion found supported)
        ("Catalog schema version " ++ toString found ++ " is newer than supported version " ++
          toString supported)
  | unknownIdentity (id : IdentityId) :
      Says (.unknownIdentity id) ("Unknown identity: #" ++ toString id.value)
  | unknownTicket (id : TicketId) :
      Says (.unknownTicket id) ("Unknown catalog ticket: ticket-" ++ toString id.value)
  | badPath {fault : PathFault} {text : String} (h : fault.Says text) :
      Says (.badPath fault) ("Invalid path: " ++ text)
  | cancelled : Says .cancelled "Import cancelled"
  | incompleteBatch (failed total : Nat) :
      Says (.incompleteBatch failed total)
        (toString failed ++ " of " ++ toString total ++ " catalog tickets failed to import")
  | io {cause : FileError} {text : String} (h : cause.Says text) :
      Says (.io cause) ("IO error: " ++ text)
  | serialization (text : String) :
      Says (.serialization text) ("Metadata serialization error: " ++ text)
  | csv {cause : FileError} {text : String} (h : cause.Says text) :
      Says (.csv cause) ("CSV error: " ++ text)

/-! ## What the library writes -/

theorem Stage.says_label (stage : Stage) : stage.Says stage.label := by
  cases stage <;> constructor

theorem CommitEffect.says_label (effect : CommitEffect) : effect.Says effect.label := by
  cases effect <;> constructor

theorem Verdict.says_label (verdict : Verdict) : verdict.Says verdict.label := by
  cases verdict <;> constructor

theorem StorageClass.says_label (found : StorageClass) : found.Says found.label := by
  cases found <;> constructor

theorem Remark.says_remarkText (remarks : List Remark) :
    Says remarks (remarkText remarks.length) := by
  cases remarks with
  | nil => exact .none
  | cons remark rest => exact .some remark rest

theorem Rejection.says_message (reason : Rejection) : reason.Says reason.message := by
  cases reason <;> constructor

theorem Pathname.says_shown (path : Pathname) : path.Says path.shown := by
  cases htext : path.text? with
  | some text =>
      rw [shown_of_text? htext]
      exact .text (Utf8.encode_of_decode? htext).symm
  | none =>
      refine .broken fun text hbytes => ?_
      rw [text?, hbytes, Utf8.decode?_encode] at htext
      cases htext

theorem FileError.says_message (cause : FileError) : cause.Says cause.message := by
  cases cause <;> constructor

theorem DecodeFault.says_message (fault : DecodeFault) : fault.Says fault.message := by
  cases fault <;> constructor

theorem PathFault.says_message (fault : PathFault) : fault.Says fault.message := by
  cases fault <;> constructor

theorem StoreFault.says_message (fault : StoreFault) : fault.Says fault.message := by
  cases fault with
  | wrongClass found column => exact .wrongClass column found.says_label
  | malformed found column reason => exact .malformed column reason found.says_label
  | _ => constructor

theorem Error.says_message (error : Error) : error.Says error.message := by
  cases error with
  | decode cause => exact .decode cause.says_message
  | store fault => exact .store fault.says_message
  | badPath fault => exact .badPath fault.says_message
  | io cause => exact .io cause.says_message
  | csv cause => exact .csv cause.says_message
  | _ => constructor

end AudioCatalog
