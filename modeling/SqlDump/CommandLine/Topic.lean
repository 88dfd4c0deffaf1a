/-!
# Commands and their help

The program has a few commands, each with values and flags. A topic is the program as a whole or one
of its commands. What can be said about a topic is its usage line and its help text.
-/

namespace SqlDump.CommandLine

/-- The name that the program goes by. -/
def programName : String := "sqlite2pg"

/-- What the program prints when it is asked for its version. -/
def versionText : String := programName ++ " 0.1.0\n"

/-- A command of the program. -/
inductive Command where
  | convert
  | dataOnly
  | completions
  | help
deriving DecidableEq, Repr

/-- The program or one of its commands. -/
inductive Topic where
  | program
  | command (command : Command)
deriving DecidableEq, Repr

/-- A flag is given or not. It has no value. -/
inductive Flag where
  | utc
  | dryRun
  | help
  | version
deriving DecidableEq, Repr

/-- A value that a topic takes by its place. -/
inductive Parameter where
  | command
  | inputFile
  | outputFile
  | shell
  | topic
deriving DecidableEq, Repr

/-- A shell that can complete the program's commands. -/
inductive Shell where
  | bash
  | elvish
  | fish
  | powershell
  | zsh
deriving DecidableEq, Repr

/-! ## Names -/

def Command.all : List Command := [convert, dataOnly, completions, help]

/-- How a command is written. -/
def Command.name : Command → String
  | convert => "convert"
  | dataOnly => "data-only"
  | completions => "completions"
  | help => "help"

/-- The command that is written so. -/
def Command.ofName? (name : String) : Option Command := all.find? fun c => c.name == name

/-- The name of a flag, which is written with two dashes in front. -/
def Flag.name : Flag → String
  | utc => "utc"
  | dryRun => "dry-run"
  | help => "help"
  | version => "version"

/-- How a flag is written. -/
def Flag.text (flag : Flag) : String := "--" ++ flag.name

/-- The letter of a flag, which is written with one dash in front. -/
def Flag.letter? : Flag → Option Char
  | help => some 'h'
  | version => some 'V'
  | _ => none

/-- How a value is named. One that may be missing stands in square brackets. -/
def Parameter.text : Parameter → String
  | command => "<COMMAND>"
  | inputFile => "<INPUT_FILE>"
  | outputFile => "<OUTPUT_FILE>"
  | shell => "<SHELL>"
  | topic => "[COMMAND]..."

def Shell.all : List Shell := [bash, elvish, fish, powershell, zsh]

/-- How a shell is written. -/
def Shell.name : Shell → String
  | bash => "bash"
  | elvish => "elvish"
  | fish => "fish"
  | powershell => "powershell"
  | zsh => "zsh"

/-- The shell that is written so. -/
def Shell.ofName? (name : String) : Option Shell := all.find? fun shell => shell.name == name

/-- The shells that there are, to be shown. -/
def Shell.choices : String :=
  "[possible values: " ++ ", ".intercalate (all.map name) ++ "]"

/-! ## What belongs to a topic -/

/-- The flags of a topic. -/
def Topic.flags : Topic → List Flag
  | program => [.help, .version]
  | command .convert => [.dryRun, .help]
  | command .dataOnly => [.utc, .dryRun, .help]
  | command .completions => [.help]
  | command .help => []

/-- The values of a topic in their order. -/
def Topic.parameters : Topic → List Parameter
  | program => [.command]
  | command .convert => [.inputFile, .outputFile]
  | command .dataOnly => [.inputFile, .outputFile]
  | command .completions => [.shell]
  | command .help => [.topic]

/-- What a command does. -/
def Command.about : Command → String
  | convert => "Convert a SQLite dump (schema and data) to PostgreSQL format"
  | dataOnly => "Convert a SQLite dump to PostgreSQL data-only format (INSERT statements only)"
  | completions => "Generate shell completions"
  | help => "Print this message or the help of the given subcommand(s)"

/-- What a topic is about. -/
def Topic.about : Topic → String
  | program => "Convert SQLite dump files into PostgreSQL-loadable SQL"
  | command c => c.about

/-- What a flag asks for. -/
def Flag.about : Flag → String
  | utc => "Render epoch timestamps in UTC instead of local time"
  | dryRun => "Run the conversion without writing the output file"
  | help => "Print help"
  | version => "Print version"

/-- What a value stands for. -/
def Parameter.about : Parameter → String
  | command => "Command to run"
  | inputFile => "Input SQLite SQL file (supports .gz, .bz2, .xz, .zst compression)"
  | outputFile => "Output PostgreSQL SQL file"
  | shell => "Shell to generate completions for " ++ Shell.choices
  | topic => "Print help for the subcommand(s)"

/-! ## Usage -/

/-- Which flags a usage line shows. -/
inductive Usage where
  | general
  | withFlags (flags : List Flag)
deriving DecidableEq, Repr

/-- Whether a flag only asks for a text about the program. -/
def Flag.isInquiry : Flag → Bool
  | help | version => true
  | _ => false

/-- The flags in a usage line. In general they are only hinted at. -/
def Usage.flagTexts (topic : Topic) : Usage → List String
  | general => if topic.flags.all Flag.isInquiry then [] else ["[OPTIONS]"]
  | withFlags flags => flags.map Flag.text

/-- How the program is called for a topic. -/
def Topic.call : Topic → List String
  | program => [programName]
  | command c => [programName, c.name]

/-- The usage line of a topic. -/
def Usage.text (usage : Usage) (topic : Topic) : String :=
  "Usage: " ++ " ".intercalate
    (topic.call ++ usage.flagTexts topic ++ topic.parameters.map Parameter.text)

/-! ## Help -/

/-- A line of a help section: what can be written, and what it means. -/
structure HelpLine where
  written : String
  about : String
deriving DecidableEq, Repr

/-- A flag with its letter. Without a letter its name still stands below the other names. -/
def Flag.helpLine (flag : Flag) : HelpLine :=
  match flag.letter? with
  | some letter => ⟨String.ofList ['-', letter, ',', ' '] ++ flag.text, flag.about⟩
  | none => ⟨"    " ++ flag.text, flag.about⟩

/-- The sections of the help of a topic, with their titles. -/
def Topic.sections (topic : Topic) : List (String × List HelpLine) :=
  let values := match topic with
    | program => ("Commands", Command.all.map fun c => HelpLine.mk c.name c.about)
    | command _ => ("Arguments", topic.parameters.map fun p => HelpLine.mk p.text p.about)
  [values, ("Options", topic.flags.map Flag.helpLine)]

/-- The lines of a section. The meanings stand below each other, two blanks behind the longest
name. -/
def sectionText (title : String) (lines : List HelpLine) : String :=
  let width := (lines.map fun line => line.written.length).foldl max 0
  let layOut (line : HelpLine) : String :=
    "  " ++ line.written.pushn ' ' (width - line.written.length) ++ "  " ++ line.about ++ "\n"
  "\n" ++ title ++ ":\n" ++ String.join (lines.map layOut)

/-- The help of a topic. Sections without lines are left out. -/
def Topic.help (topic : Topic) : String :=
  let sections := topic.sections.filter fun entry => !entry.2.isEmpty
  topic.about ++ "\n\n" ++ Usage.general.text topic ++ "\n" ++
    String.join (sections.map fun entry => sectionText entry.1 entry.2)

end SqlDump.CommandLine
