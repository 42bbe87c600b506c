import AudioCatalog.CommandLine.Commands
import AudioCatalog.CommandLine.Parser

/-!
# Explaining the command line

The texts for a command line that does not lead to a command.  What was asked for is
printed as output, and what is wrong is printed as an error with a hint at the help.
-/

namespace AudioCatalog.CommandLine

/-- The name and version of the program. -/
def versionLine : String := "audio-catalog 0.1.0"

namespace CommandName

/-- The operands of a command, as they are written in the help. -/
def operandText (name : CommandName) : String :=
  match name.level.operands with
  | .none => ""
  | .one => " PATH"
  | .many => " PATH..."

/-- What a command does. -/
def purpose : CommandName → String
  | importFiles => "import files, and the audio files below directories"
  | catalogFiles => "put the import of files off"
  | replay => "import the files that were put off"
  | lookUp => "tell whether the recording in a file is in the catalog"
  | describe => "describe a file"

/-- The line of the help about a command. -/
def helpLine (name : CommandName) : String :=
  s!"  {name.label}{name.operandText}: {name.purpose}"

end CommandName

namespace OptionName

/-- All options. -/
def all : List OptionName :=
  [catalog, timeout, threads, logLevel, keep, noKeep, careful, noCareful, report, help, version]

/-- What an option does. -/
def purpose : OptionName → String
  | catalog => "the file that holds the catalog"
  | timeout => "seconds for decoding a file"
  | threads => "the number of workers"
  | logLevel => "which messages are logged"
  | keep => "keep imported files, as is usual"
  | noKeep => "remove imported files"
  | careful => "match recordings that sound alike too, as is usual"
  | noCareful => "match recordings only that are the same bit for bit"
  | report => "a file for a report with a line for each ticket"
  | help => "show this text"
  | version => "show the version"

/-- The line of the help about an option. -/
def helpLine (option : OptionName) : String :=
  let short := match option.short? with
    | some letter => s!"-{letter}, "
    | none => ""
  let value := if option.takesValue then " VALUE" else ""
  s!"  {short}--{option.long}{value}: {option.purpose}"

end OptionName

/-- The text of the help. -/
def helpLines : List String :=
  ["Usage: audio-catalog OPTIONS COMMAND", "", "Commands:"]
    ++ CommandName.all.map CommandName.helpLine
    ++ ["", "Options:"]
    ++ OptionName.all.map OptionName.helpLine

namespace UsageError

/-- What is wrong with a command line, unless help or the version was asked for. -/
def message : UsageError → String
  | displayHelp | displayVersion => ""
  | nothingGiven => "there are no arguments"
  | missingCommand => "a command is missing"
  | unknownCommand => "there is no such command"
  | unknownArgument => "an argument has no place"
  | tooManyValues => "a flag has a value"
  | missingValue => "a value is missing"
  | malformedValue => "a value is not a number of the right size"
  | invalidText => "a value is not text"
  | repeatedOption => "an option is given twice"
  | missingOperand => "a path name is missing"

/-- What is printed about a command line. -/
def transcript (error : UsageError) : Transcript :=
  match error with
  | displayHelp => ⟨helpLines, [], error.exitCode⟩
  | displayVersion => ⟨[versionLine], [], error.exitCode⟩
  | nothingGiven => ⟨[], helpLines, error.exitCode⟩
  | _ =>
    ⟨[], [s!"error: {error.message}", "For more information, use --help."], error.exitCode⟩

end UsageError

end AudioCatalog.CommandLine
