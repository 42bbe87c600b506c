import AudioCatalog.Import.Job

/-!
# What a command line asks for

A command line names one of five commands with its operands, and the options that all
commands share.  One that cannot be understood has a `UsageError`.
-/

namespace AudioCatalog.CommandLine

/-- A command and its operands. -/
inductive Command where
  /-- Import files now. -/
  | importFiles (paths : List Pathname) (handling : Handling)
  /-- Put the import of files off. -/
  | catalogFiles (paths : List Pathname)
  /-- Import the files of all pending tickets, and write a report if wanted. -/
  | replay (handling : Handling) (report : Option Pathname)
  /-- Tell whether the recording in a file is in the catalog. -/
  | lookUp (path : Pathname) (careful : Bool)
  /-- Describe a file. -/
  | describe (path : Pathname)

/-- A command with the options that all commands share. -/
structure Options where
  catalog : Pathname
  timeoutSeconds : Nat
  threads : Option Nat
  logLevel : Option String
  command : Command

/-- Why a command line does not lead to a command. -/
inductive UsageError where
  /-- Help was asked for. -/
  | displayHelp
  /-- The version was asked for. -/
  | displayVersion
  /-- There are no arguments at all. -/
  | nothingGiven
  | missingCommand
  | unknownCommand
  | unknownArgument
  /-- A flag has a value attached. -/
  | tooManyValues
  /-- An option lacks its value, or a path name is empty. -/
  | missingValue
  /-- A value is not the number that the option needs. -/
  | malformedValue
  /-- A value that has to be text is not. -/
  | invalidText
  /-- An option that may be given once is given again. -/
  | repeatedOption
  | missingOperand
  deriving DecidableEq

namespace UsageError

/-- The exit code: asking for help or the version is no failure. -/
def exitCode : UsageError → Nat
  | displayHelp | displayVersion => 0
  | _ => 2

end UsageError

end AudioCatalog.CommandLine
