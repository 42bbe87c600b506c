import AudioCatalog.CommandLine.Options
import AudioCatalog.Text.Utf8

/-!
# Scanning arguments

A command line is scanned level by level: first what stands before the name of the
command, then the arguments of the command itself.  Options come in a long form, whose
value may follow an equals sign, and some in a short form of one letter; letters may be
run together.  After a double dash everything is an operand.  The value of an option is
checked only when the next option or operand begins, so an argument that is not
understood at all is reported first.  Arguments are byte strings and need not be text.
-/

namespace AudioCatalog.CommandLine

/-- One argument as it was given. -/
abbrev Argument := List UInt8

/-- The dash in front of options. -/
def dash : UInt8 := 45

/-- The equals sign in front of an attached value. -/
def equalsSign : UInt8 := 61

/-- The plus sign that a number may have. -/
def plusSign : UInt8 := 43

/-- The options of all levels. -/
inductive OptionName where
  | help
  | version
  | catalog
  | timeout
  | threads
  | logLevel
  | keep
  | noKeep
  | careful
  | noCareful
  | report
  deriving DecidableEq

namespace OptionName

/-- The long form, without the dashes. -/
def long : OptionName → String
  | help => "help"
  | version => "version"
  | catalog => "catalog"
  | timeout => "timeout-secs"
  | threads => "threads"
  | logLevel => "log-level"
  | keep => "keep"
  | noKeep => "no-keep"
  | careful => "careful"
  | noCareful => "no-careful"
  | report => "report"

/-- The letter of the short form, if there is one. -/
def short? : OptionName → Option Char
  | help => some 'h'
  | version => some 'V'
  | catalog => some 'd'
  | threads => some 't'
  | keep => some 'k'
  | careful => some 'c'
  | report => some 'r'
  | timeout | logLevel | noKeep | noCareful => none

/-- Whether the option has a value. -/
def takesValue : OptionName → Bool
  | catalog | timeout | threads | logLevel | report => true
  | help | version | keep | noKeep | careful | noCareful => false

/-- The option that is taken back when this one is given. -/
def opposite? : OptionName → Option OptionName
  | keep => some noKeep
  | noKeep => some keep
  | careful => some noCareful
  | noCareful => some careful
  | _ => none

end OptionName

/-- How many operands a level takes. -/
inductive Operands where
  | none
  | one
  | many
  deriving DecidableEq

/-- What can stand at a level: options, operands, and names of commands. -/
structure Level where
  options : List OptionName
  operands : Operands
  commands : List String

namespace Level

/-- The option with a long form. -/
def long? (level : Level) (name : Argument) : Option OptionName :=
  level.options.find? fun option => Utf8.encode option.long = name

/-- The option with a letter, which takes one byte. -/
def short? (level : Level) (letter : UInt8) : Option OptionName :=
  level.options.find? fun option => option.short?.map Char.toNat = some letter.toNat

/-- The command with a name. -/
def command? (level : Level) (name : Argument) : Option String :=
  level.commands.find? fun command => Utf8.encode command = name

end Level

/-- The largest number of 64 bits. -/
def numberLimit : Nat := 18446744073709551615

/-- A number in decimal, with a plus sign in front if wanted. -/
def number? (argument : Argument) : Option Nat :=
  let digits := if argument.head? = some plusSign then argument.tail else argument
  if digits ≠ [] && digits.all (fun byte => 48 ≤ byte && byte ≤ 57) then
    let value := digits.foldl (fun n byte => 10 * n + (byte.toNat - 48)) 0
    if value ≤ numberLimit then some value else none
  else none

/-- Checks the value of an option. -/
def checkValue (option : OptionName) (value : Argument) : Except UsageError Unit :=
  match option with
  | .catalog | .report => if value = [] then .error .missingValue else .ok ()
  | .timeout | .threads =>
    if (Utf8.decode? value).isNone then .error .invalidText
    else if (number? value).isNone then .error .malformedValue
    else .ok ()
  | .logLevel => if (Utf8.decode? value).isNone then .error .invalidText else .ok ()
  | _ => .ok ()

/-- What was begun and is not checked yet. -/
inductive Pending where
  | nothing
  /-- An option, with its value if that is there. -/
  | option (name : OptionName) (value : Option Argument)
  /-- Operands that follow each other. -/
  | operands (values : List Argument)

/-- What was scanned of a level so far. -/
structure Scan where
  given : List (OptionName × Argument)
  operands : List Argument
  pending : Pending
  /-- A double dash has come. -/
  onlyOperands : Bool

namespace Scan

/-- Nothing was scanned yet. -/
def start : Scan :=
  ⟨[], [], .nothing, false⟩

/-- The value of an option that was given. -/
def value? (scan : Scan) (option : OptionName) : Option Argument :=
  (scan.given.find? fun entry => entry.1 = option).map (·.2)

/-- Whether the next argument is the value of an option. -/
def awaitsValue (scan : Scan) : Bool :=
  match scan.pending with
  | .option _ none => true
  | _ => false

/-- Whether anything was given. -/
def isEmpty (scan : Scan) : Bool :=
  scan.given.isEmpty && scan.operands.isEmpty

/-- Records an option with its value.  Its opposite is taken back. -/
def give (scan : Scan) (option : OptionName) (value : Argument) : Except UsageError Scan := do
  if (scan.value? option).isSome then throw .repeatedOption
  checkValue option value
  return { scan with
    given := (scan.given.filter fun entry => some entry.1 ≠ option.opposite?)
      ++ [(option, value)] }

/-- Checks and records what is pending. -/
def settle (scan : Scan) : Except UsageError Scan :=
  let settled := { scan with pending := .nothing }
  match scan.pending with
  | .nothing => .ok settled
  | .option _ none => .error .missingValue
  | .option name (some value) => settled.give name value
  | .operands values =>
    if values.contains [] then .error .missingValue
    else .ok { settled with operands := scan.operands ++ values }

/-- Takes a flag. -/
def flag (scan : Scan) (option : OptionName) : Except UsageError Scan := do
  let scan ← scan.settle
  match option with
  | .help => throw .displayHelp
  | .version => throw .displayVersion
  | option => scan.give option []

/-- Takes an option with the value that is attached to it, if one is. -/
def valued (scan : Scan) (option : OptionName) (attached : Option Argument) :
    Except UsageError Scan := do
  let scan ← scan.settle
  match attached with
  | some value => scan.give option value
  | none => return { scan with pending := .option option none }

/-- Takes an argument that begins with two dashes. -/
def long (level : Level) (scan : Scan) (body : List UInt8) : Except UsageError Scan :=
  let name := body.takeWhile (· ≠ equalsSign)
  let attached := match body.dropWhile (· ≠ equalsSign) with
    | [] => none
    | _ :: value => some value
  match level.long? name with
  | none => .error .unknownArgument
  | some option =>
    if option.takesValue then scan.valued option attached
    else if attached.isSome then .error .tooManyValues
    else scan.flag option

/-- Takes letters behind one dash.  Those behind an option with a value are the value;
an equals sign in front of them is dropped. -/
def letters (level : Level) (scan : Scan) : List UInt8 → Except UsageError Scan
  | [] => .ok scan
  | letter :: rest =>
    match level.short? letter with
    | none => .error .unknownArgument
    | some option =>
      if option.takesValue then
        scan.valued option
          (if rest = [] then none
          else if rest.head? = some equalsSign then some rest.tail
          else some rest)
      else do
        let scan ← scan.flag option
        letters level scan rest

/-- The error for an operand that has no place. -/
def misplaced (level : Level) (scan : Scan) (argument : Argument) : UsageError :=
  if level.commands = [] || (scan.onlyOperands && (level.command? argument).isSome) then
    .unknownArgument
  else .unknownCommand

/-- Takes an operand. -/
def operand (level : Level) (scan : Scan) (argument : Argument) : Except UsageError Scan :=
  match level.operands with
  | .none => .error (scan.misplaced level argument)
  | .many =>
    match scan.pending with
    | .operands values => .ok { scan with pending := .operands (values ++ [argument]) }
    | _ => scan.settle.map fun scan => { scan with pending := .operands [argument] }
  | .one =>
    match scan.operands, scan.pending with
    | [], .operands _ => .error (scan.misplaced level argument)
    | [], _ => scan.settle.map fun scan => { scan with pending := .operands [argument] }
    | _ :: _, _ => .error (scan.misplaced level argument)

/-- Takes an argument that is not the name of a command. -/
def take (level : Level) (scan : Scan) (argument : Argument) : Except UsageError Scan :=
  if scan.onlyOperands then scan.operand level argument
  else if argument = [dash, dash] then .ok { scan with onlyOperands := true }
  else if [dash, dash].isPrefixOf argument then scan.long level (argument.drop 2)
  else if [dash].isPrefixOf argument && argument ≠ [dash] then
    scan.letters level (argument.drop 1)
  else match scan.pending with
    | .option name none => .ok { scan with pending := .option name (some argument) }
    | _ => scan.operand level argument

/-- Takes arguments up to the name of a command, and gives that with what is behind
it. -/
def takeAll (level : Level) (scan : Scan) :
    List Argument → Except UsageError (Scan × Option (String × List Argument))
  | [] => .ok (scan, none)
  | argument :: rest =>
    let command? :=
      if scan.onlyOperands || scan.awaitsValue then none else level.command? argument
    match command? with
    | some command => .ok (scan, some (command, rest))
    | none =>
      match scan.take level argument with
      | .error error => .error error
      | .ok scan => takeAll level scan rest

end Scan

end AudioCatalog.CommandLine
