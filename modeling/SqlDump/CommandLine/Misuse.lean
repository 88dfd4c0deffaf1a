import SqlDump.CommandLine.Topic
/-!
# Misuse

Arguments that the program cannot follow are answered with what is wrong, a tip where there is one,
and the usage line.
-/

namespace SqlDump.CommandLine

/-- What is wrong with the arguments. -/
inductive Problem where
  | missing (parameters : List Parameter)
  | emptyValue (parameter : Parameter)
  | unknownShell (value : String)
  | unknownCommand (name : String)
  | unexpectedArgument (argument : String)
  | unexpectedValue (flag : Flag) (value : String)
  | repeatedFlag (flag : Flag)
deriving DecidableEq, Repr

/-- What might help. -/
inductive Tip where
  | similarCommands (commands : List Command)
  | similarFlag (flag : Flag)
  | similarShell (shell : Shell)
  | flagOfCommand (command : Command) (flag : Flag)
  | passAsValue (argument : String)
  | commandBehindDashes (command : Command)
deriving DecidableEq, Repr

/-- A misuse of the program. Where no command is given, the help is the answer. -/
inductive Misuse where
  | noCommand
  | wrong (topic : Topic) (problem : Problem) (tip : Option Tip) (usage : Option Usage)
deriving DecidableEq, Repr

/-- A text in single quotes. -/
def quoted (text : String) : String := "'" ++ text ++ "'"

/-- The text of a problem. -/
def Problem.message : Problem → String
  | missing parameters =>
    "the following required arguments were not provided:" ++
      String.join (parameters.map fun p => "\n  " ++ p.text)
  | emptyValue parameter =>
    "a value is required for " ++ quoted parameter.text ++ " but none was supplied" ++
      if parameter = .shell then "\n  " ++ Shell.choices else ""
  | unknownShell value =>
    "invalid value " ++ quoted value ++ " for " ++ quoted Parameter.shell.text ++ "\n  " ++ Shell.choices
  | unknownCommand name => "unrecognized subcommand " ++ quoted name
  | unexpectedArgument argument => "unexpected argument " ++ quoted argument ++ " found"
  | unexpectedValue flag value =>
    "unexpected value " ++ quoted value ++ " for " ++ quoted flag.text ++ " found; no more were expected"
  | repeatedFlag flag => "the argument " ++ quoted flag.text ++ " cannot be used multiple times"

/-- The text of a tip. -/
def Tip.message : Tip → String
  | similarCommands [command] => "a similar subcommand exists: " ++ quoted command.name
  | similarCommands commands =>
    "some similar subcommands exist: " ++ ", ".intercalate (commands.map fun c => quoted c.name)
  | similarFlag flag => "a similar argument exists: " ++ quoted flag.text
  | similarShell shell => "a similar value exists: " ++ quoted shell.name
  | flagOfCommand command flag => quoted (command.name ++ " " ++ flag.text) ++ " exists"
  | passAsValue argument =>
    "to pass " ++ quoted argument ++ " as a value, use " ++ quoted ("-- " ++ argument)
  | commandBehindDashes command =>
    "subcommand " ++ quoted command.name ++ " exists; to use it, remove the '--' before it"

/-- The text that answers a misuse. It points to the help if the topic has a flag for it. -/
def Misuse.message : Misuse → String
  | noCommand => Topic.program.help
  | wrong topic problem tip usage =>
    let tipPart := match tip with
      | some tip => "\n\n  tip: " ++ tip.message
      | none => ""
    let usagePart := match usage with
      | some usage => "\n\n" ++ usage.text topic
      | none => ""
    let helpPart :=
      if Flag.help ∈ topic.flags then "\n\nFor more information, try " ++ quoted Flag.help.text ++ "." else ""
    "error: " ++ problem.message ++ tipPart ++ usagePart ++ helpPart ++ "\n"

end SqlDump.CommandLine
