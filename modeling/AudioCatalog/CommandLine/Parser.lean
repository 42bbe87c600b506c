import AudioCatalog.CommandLine.Scanner

/-!
# Reading a command line

Puts the commands together from scanned levels.  The arguments of a command are read in
full before the last option in front of its name is checked.  An option that all
commands share may stand on either side of the name; behind it, it counts more.
-/

namespace AudioCatalog.CommandLine

/-- Options that may stand anywhere. -/
def sharedOptions : List OptionName :=
  [.catalog, .timeout, .threads, .logLevel, .help]

/-- The commands. -/
inductive CommandName where
  | importFiles
  | catalogFiles
  | replay
  | lookUp
  | describe
  deriving DecidableEq

namespace CommandName

/-- All commands. -/
def all : List CommandName :=
  [importFiles, catalogFiles, replay, lookUp, describe]

/-- The name of a command as it is typed. -/
def label : CommandName → String
  | importFiles => "import"
  | catalogFiles => "catalog"
  | replay => "import-catalog"
  | lookUp => "exists"
  | describe => "analyze"

/-- What can stand behind the name. -/
def level (name : CommandName) : Level where
  options := sharedOptions ++ match name with
    | importFiles => [.keep, .noKeep, .careful, .noCareful]
    | replay => [.keep, .noKeep, .careful, .noCareful, .report]
    | lookUp => [.careful, .noCareful]
    | catalogFiles | describe => []
  operands := match name with
    | importFiles | catalogFiles => .many
    | replay => .none
    | lookUp | describe => .one
  commands := []

end CommandName

/-- The name that asks for help. -/
def helpLabel : String := "help"

/-- What can stand in front of the name of a command. -/
def topLevel : Level where
  options := .version :: sharedOptions
  operands := .none
  commands := helpLabel :: CommandName.all.map CommandName.label

/-- The handling that flags ask for: to keep imported files and to be careful unless told
otherwise. -/
def handlingOf (scan : Scan) : Handling where
  keepFile := (scan.value? .noKeep).isNone
  careful := (scan.value? .noCareful).isNone

/-- The command that a scanned level amounts to. -/
def commandOf (name : CommandName) (scan : Scan) : Except UsageError Command :=
  let paths := scan.operands.map Pathname.mk
  match name, paths with
  | .replay, _ =>
    .ok (.replay (handlingOf scan) ((scan.value? .report).map Pathname.mk))
  | _, [] => .error .missingOperand
  | .importFiles, paths => .ok (.importFiles paths (handlingOf scan))
  | .catalogFiles, paths => .ok (.catalogFiles paths)
  | .lookUp, path :: _ => .ok (.lookUp path (handlingOf scan).careful)
  | .describe, path :: _ => .ok (.describe path)

/-- The path name of the catalog unless another is given. -/
def defaultCatalog : Pathname := .ofText "audiofs.db"

/-- Seconds for decoding a file unless another number is given. -/
def defaultTimeout : Nat := 120

/-- The options of two levels and a command together. -/
def combine (outer inner : Scan) (command : Command) : Options :=
  let value? (option : OptionName) := (inner.value? option).or (outer.value? option)
  { catalog := ((value? .catalog).map Pathname.mk).getD defaultCatalog
    timeoutSeconds := ((value? .timeout).bind number?).getD defaultTimeout
    threads := (value? .threads).bind number?
    logLevel := (value? .logLevel).bind Utf8.decode?
    command := command }

/-- The error of asking for help on what the arguments name: a command or nothing. -/
def helpOn : List Argument → UsageError
  | [] => .displayHelp
  | [name] => if (topLevel.command? name).isSome then .displayHelp else .unknownCommand
  | _ => .unknownCommand

/-- Reads the arguments of a command line. -/
def parse (arguments : List Argument) : Except UsageError Options := do
  match ← Scan.takeAll topLevel .start arguments with
  | (outer, none) =>
    let outer ← outer.settle
    if outer.isEmpty then throw .nothingGiven else throw .missingCommand
  | (outer, some (label, rest)) =>
    match CommandName.all.find? fun name => name.label = label with
    | none => throw (helpOn rest)
    | some name =>
      let (inner, _) ← Scan.takeAll name.level .start rest
      let inner ← inner.settle
      let command ← commandOf name inner
      let outer ← outer.settle
      return combine outer inner command

end AudioCatalog.CommandLine
