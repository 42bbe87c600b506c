import AudioCatalog.Catalog.Fault
import AudioCatalog.Pathname
import AudioCatalog.Text.Hex

/-!
# Names of databases

A database is named by a path name or, if the name begins with `file:`, by an address: a
path name in which a byte may be written as a percent sign and two hexadecimal digits,
followed by a question mark and parameters with ampersands between them.  What follows a
number sign does not count.  The parameters `mode` and `cache` say how the database is
opened, `vfs` names the file layer, `nolock` does without locks, `immutable` says that the
file does not change, and `modeof` names a file to be like; others do not count.

A database without a path name, and one that is called `:memory:`, is private to the
connection that opens it.
-/

namespace AudioCatalog

/-- How a database is opened. -/
inductive OpenMode where
  /-- Only for reading; it has to be there. -/
  | readOnly
  /-- For reading and writing; it has to be there. -/
  | readWrite
  /-- For reading and writing; it is made if it is missing. -/
  | create
  /-- Without a file. -/
  | memory
  deriving DecidableEq

namespace OpenMode

/-- The word for a mode in an address. -/
def label : OpenMode → String
  | readOnly => "ro"
  | readWrite => "rw"
  | create => "rwc"
  | memory => "memory"

/-- All modes. -/
def all : List OpenMode :=
  [readOnly, readWrite, create, memory]

/-- How much a mode asks of one that is in force; without a file nothing is asked. -/
def demand : OpenMode → Nat
  | memory => 0
  | readOnly => 1
  | readWrite => 2
  | create => 3

/-- How much a mode that is in force allows. -/
def allowance : OpenMode → Nat
  | readOnly => 1
  | readWrite => 2
  | create | memory => 3

end OpenMode

/-- What the name of a database stands for. -/
structure DatabaseName where
  file : Pathname
  mode : OpenMode
  /-- Whether connections of one process share what they hold in memory. -/
  shared : Bool
  /-- Whether locks keep connections apart and changes can go to a log. -/
  guarded : Bool
  /-- Whether the file is taken not to change. -/
  frozen : Bool
  /-- The file whose permissions a new file gets. -/
  model : Option Pathname
  deriving DecidableEq

namespace DatabaseName

/-- The name of a database in memory. -/
def memoryName : List UInt8 :=
  Utf8.encode ":memory:"

/-- Whether the database has no file. -/
def isPrivate (name : DatabaseName) : Bool :=
  name.file.bytes = [] || name.file.bytes = memoryName || name.mode = .memory

/-- The number sign, which ends an address. -/
def numberSign : UInt8 := 35

/-- The ampersand, which ends a parameter. -/
def ampersand : UInt8 := 38

/-- The equals sign between the name and the value of a parameter. -/
def equalsSign : UInt8 := 61

/-- The question mark in front of the parameters. -/
def questionMark : UInt8 := 63

/-- The byte that two hexadecimal digits stand for. -/
def octet? (high low : UInt8) : Option UInt8 := do
  let h ← Hex.value? (Char.ofNat high.toNat)
  let l ← Hex.value? (Char.ofNat low.toNat)
  return UInt8.ofNat (16 * h + l)

/-- Takes a part of an address up to one of some bytes that end it, and gives what is
left.  A zero byte that is written with digits cuts the part off. -/
def takePart (ends : UInt8 → Bool) : List UInt8 → List UInt8 × List UInt8
  | [] => ([], [])
  | 37 :: high :: low :: rest =>
    match octet? high low with
    | some 0 => ([], rest.dropWhile fun byte => !(byte = numberSign || ends byte))
    | some octet =>
      let (part, left) := takePart ends rest
      (octet :: part, left)
    | none =>
      let (part, left) := takePart ends (high :: low :: rest)
      (37 :: part, left)
  | byte :: rest =>
    if byte = numberSign || ends byte then ([], byte :: rest)
    else
      let (part, left) := takePart ends rest
      (byte :: part, left)

/-- The parameters of an address, from behind the question mark on.  One without a name is
left out.  `limit` bounds their number. -/
def parameters : Nat → List UInt8 → List (List UInt8 × List UInt8)
  | 0, _ => []
  | limit + 1, bytes =>
    let (name, left) := takePart (fun byte => byte = equalsSign || byte = ampersand) bytes
    match left with
    | 61 :: rest =>
      if name = [] then
        parameters limit ((rest.takeWhile (· ≠ numberSign)).dropWhile (· ≠ ampersand)).tail
      else
        let (value, left) := takePart (· = ampersand) rest
        (name, value) :: match left with
          | 38 :: rest => parameters limit rest
          | _ => []
    | 38 :: rest =>
      if name = [] then parameters limit rest else (name, []) :: parameters limit rest
    | _ => if name = [] then [] else [(name, [])]

/-- The text of a part in messages. -/
def shown (part : List UInt8) : String :=
  Utf8.decodeLossy part

/-- The file layer that keeps its files in memory. -/
def memoryLayer : String := "memdb"

/-- The file layers without locks that other layers see. -/
def looseLayers : List String :=
  ["unix-none", "unix-dotfile"]

/-- The file layers there are. -/
def layers : List String :=
  ["unix", "unix-excl", memoryLayer] ++ looseLayers

/-- The words that say whether something holds. -/
def switchWords : List (String × Bool) :=
  [("on", true), ("yes", true), ("true", true), ("off", false), ("no", false),
    ("false", false)]

/-- Whether a value says that something holds.  A number of more than 31 bits counts as
zero, and of any other the last eight bits count. -/
def isOn (value : List UInt8) : Bool :=
  let digits := value.takeWhile fun byte => 48 ≤ byte && byte ≤ 57
  if digits = [] then
    let lower := value.map fun byte => if 65 ≤ byte && byte ≤ 90 then byte + 32 else byte
    (switchWords.find? fun entry => Utf8.encode entry.1 = lower).any (·.2)
  else
    let number := digits.foldl (fun number byte => number * 10 + (byte.toNat - 48)) 0
    number < 2147483648 && number % 256 ≠ 0

/-- The parameters of an address, as names with values. -/
abbrev Parameters := List (List UInt8 × List UInt8)

/-- The value of the first parameter with a name. -/
def firstOf? (parameters : Parameters) (key : String) : Option (List UInt8) :=
  (parameters.find? fun entry => entry.1 = Utf8.encode key).map (·.2)

/-- The name with one more parameter taken into account. -/
def withParameter (name : DatabaseName) (key value : List UInt8) :
    Except StoreFault DatabaseName :=
  if key = Utf8.encode "mode" then
    match OpenMode.all.find? fun mode => Utf8.encode mode.label = value with
    | none => .error (.unknownMode "access" (shown value))
    | some mode =>
      if name.mode.allowance < mode.demand then .error (.forbiddenMode (shown value))
      else .ok { name with mode := mode }
  else if key = Utf8.encode "cache" then
    if value = Utf8.encode "shared" then .ok { name with shared := true }
    else if value = Utf8.encode "private" then .ok { name with shared := false }
    else .error (.unknownMode "cache" (shown value))
  else .ok name

/-- The name with the file layer taken into account, which is the last one that the
parameters name.  Connections share what is in memory under an absolute path name. -/
def withLayer (name : DatabaseName) (parameters : Parameters) :
    Except StoreFault DatabaseName :=
  match (parameters.filter fun entry => entry.1 = Utf8.encode "vfs").getLast? with
  | none => .ok name
  | some (_, value) =>
    match layers.find? fun layer => Utf8.encode layer = value with
    | none => .error (.unknownLayer (shown value))
    | some layer =>
      if layer = memoryLayer then
        .ok { name with
          mode := .memory
          shared := name.file.isAbsolute
          frozen := name.frozen || name.mode = .readOnly }
      else if looseLayers.contains layer then .ok { name with guarded := false }
      else .ok name

/-- The name with what the first of some parameters say about its file. -/
def withHandling (name : DatabaseName) (parameters : Parameters) : DatabaseName :=
  { name with
    guarded := !(firstOf? parameters "nolock").any isOn
    frozen := !name.isPrivate && (firstOf? parameters "immutable").any isOn
    model := (firstOf? parameters "modeof").map Pathname.mk }

/-- What the names of addresses begin with. -/
def scheme : List UInt8 :=
  Utf8.encode "file:"

/-- The address without the machine, which may be given as this one or not at all. -/
def dropAuthority : List UInt8 → Except StoreFault (List UInt8)
  | 47 :: 47 :: rest =>
    let authority := rest.takeWhile (· ≠ Pathname.slash)
    if authority = [] || authority = Utf8.encode "localhost" then
      .ok (rest.dropWhile (· ≠ Pathname.slash))
    else .error (.foreignAuthority (shown authority))
  | address => .ok address

/-- The name of a file, without parameters. -/
def plain (allowed : OpenMode) (file : Pathname) : DatabaseName :=
  ⟨file, allowed, false, true, false, none⟩

/-- What an address stands for, from behind the scheme on. -/
def ofAddress (allowed : OpenMode) (address : List UInt8) : Except StoreFault DatabaseName := do
  let (file, left) := takePart (· = questionMark) (← dropAuthority address)
  let parameters := match left with
    | 63 :: rest => parameters (rest.length + 1) rest
    | _ => []
  let start := plain allowed ⟨file⟩
  let name ← parameters.foldlM (fun name entry => withParameter name entry.1 entry.2) start
  (name.withHandling parameters).withLayer parameters

/-- What a name stands for, where no more than `allowed` may be asked for. -/
def parse (allowed : OpenMode) (name : Pathname) : Except StoreFault DatabaseName :=
  if scheme.isPrefixOf name.bytes then ofAddress allowed (name.bytes.drop scheme.length)
  else .ok (plain allowed name)

end DatabaseName

end AudioCatalog
