import SqlDump.CommandLine.Misuse
import SqlDump.CommandLine.Similarity
import SqlDump.Run
/-!
# Requests

The arguments of the program are read from left to right. Flags may stand anywhere among the values;
behind `--` everything is a value. Flags that ask for help or for the version are answered as soon
as they are met.
-/

namespace SqlDump.CommandLine

/-- What the program is asked to tell. -/
inductive Inquiry where
  | completions (shell : Shell)
  | help (topic : Topic)
  | version
deriving DecidableEq, Repr

/-- What the program is asked to do. -/
inductive Request where
  | convert (job : Job)
  | dataOnly (job : Job) (zone : Time.Zone)
  | tell (inquiry : Inquiry)
deriving DecidableEq, Repr

/-- An argument by its form. -/
inductive Argument where
  | separator
  | long (name : String) (value : Option String)
  | short (letter : Char)
  | word (text : String)
deriving DecidableEq, Repr

/-- The name and the value of a long flag. The value follows the first equals sign. -/
def Argument.ofLong (written : List Char) : Argument :=
  let name := String.ofList (written.takeWhile (· != '='))
  match written.dropWhile (· != '=') with
  | _ :: value => .long name (some (String.ofList value))
  | [] => .long name none

/-- The form of an argument. Of several letters behind one dash the first decides; a dash alone is a
word. -/
def Argument.ofString (text : String) : Argument :=
  match text.toList with
  | ['-', '-'] => .separator
  | '-' :: '-' :: written => .ofLong written
  | '-' :: letter :: _ => .short letter
  | _ => .word text

/-! ## The arguments of a command -/

/-- What has been read of a command's arguments: its flags in the order of their use, and its
values. -/
structure Progress where
  used : List Flag
  values : List String
deriving DecidableEq, Repr

/-- The shell that a value names. -/
def readShell (value : String) : Except Misuse Shell :=
  match Shell.ofName? value with
  | some shell => .ok shell
  | none =>
    let problem := if value.isEmpty then Problem.emptyValue .shell else .unknownShell value
    .error (.wrong (.command .completions) problem
      ((mostSimilar? value Shell.name Shell.all).map .similarShell) none)

/-- Whether a value is one that its parameter can have. -/
def checkValue (topic : Topic) (parameter : Parameter) (value : String) : Except Misuse Unit :=
  match parameter with
  | .shell => (readShell value).map fun _ => ()
  | _ => if value.isEmpty then .error (.wrong topic (.emptyValue parameter) none none) else .ok ()

/-- Checks values from left to right. -/
def checkValues (topic : Topic) : List Parameter → List String → Except Misuse Unit
  | parameter :: parameters, value :: values => do
    checkValue topic parameter value
    checkValues topic parameters values
  | _, _ => .ok ()

namespace Progress

/-- Checks the values that were read. -/
def check (p : Progress) (c : Command) : Except Misuse Unit :=
  checkValues (.command c) (Topic.command c).parameters p.values

/-- One more value, for which there must be a parameter. -/
def addValue (p : Progress) (c : Command) (value : String) : Except Misuse Progress :=
  if p.values.length < (Topic.command c).parameters.length then do
    p.check c
    return { p with values := p.values ++ [value] }
  else .error (.wrong (.command c) (.unexpectedArgument value) none (some .general))

/-- The flags in use with one more. -/
def usedWith (p : Progress) (flag : Flag) : List Flag :=
  if flag ∈ p.used then p.used else p.used ++ [flag]

/-- One more flag, which must not be in use. -/
def addFlag (p : Progress) (c : Command) (flag : Flag) : Except Misuse Progress :=
  if flag ∈ p.used then .error (.wrong (.command c) (.repeatedFlag flag) none (some .general))
  else .ok { p with used := p.used ++ [flag] }

/-- A flag that the command does not have. One with a similar name may be meant. -/
def unknownFlag (p : Progress) (c : Command) (name : String) : Misuse :=
  let problem := Problem.unexpectedArgument ("--" ++ name)
  match mostSimilar? name Flag.name (Topic.command c).flags with
  | some flag => .wrong (.command c) problem (some (.similarFlag flag)) (some (.withFlags (p.usedWith flag)))
  | none =>
    let usage := if p.used.isEmpty && p.values.isEmpty then Usage.general else .withFlags p.used
    .wrong (.command c) problem (some (.passAsValue ("--" ++ name))) (some usage)

/-- The request that the arguments of a command make. -/
def request (p : Progress) (c : Command) : Except Misuse Request := do
  p.check c
  match c, p.values with
  | .convert, [input, output] =>
    return .convert ⟨.ofString input, .ofString output, decide (Flag.dryRun ∈ p.used)⟩
  | .dataOnly, [input, output] =>
    return .dataOnly ⟨.ofString input, .ofString output, decide (Flag.dryRun ∈ p.used)⟩
      (if Flag.utc ∈ p.used then .utc else .localTime)
  | .completions, [shell] => return .tell (.completions (← readShell shell))
  | _, _ =>
    throw (.wrong (.command c) (.missing ((Topic.command c).parameters.drop p.values.length)) none
      (some (.withFlags p.used)))

end Progress

/-- Reads arguments behind `--`. -/
def readValues (c : Command) : Progress → List String → Except Misuse Request
  | p, [] => p.request c
  | p, value :: rest => do readValues c (← p.addValue c value) rest

/-- Reads the arguments of a command. -/
def readArguments (c : Command) : Progress → List String → Except Misuse Request
  | p, [] => p.request c
  | p, argument :: rest =>
    match Argument.ofString argument with
    | .separator => readValues c p rest
    | .word value => do readArguments c (← p.addValue c value) rest
    | .short letter =>
      match (Topic.command c).flags.find? fun flag => flag.letter? == some letter with
      | some _ => (p.check c).map fun _ => .tell (.help (.command c))
      | none =>
        let written := String.ofList ['-', letter]
        .error (.wrong (.command c) (.unexpectedArgument written) (some (.passAsValue written)) (some .general))
    | .long name value =>
      match (Topic.command c).flags.find? fun flag => flag.name == name, value with
      | none, _ => .error (p.unknownFlag c name)
      | some flag, some value =>
        .error (.wrong (.command c) (.unexpectedValue flag value) none (some (.withFlags (p.usedWith flag))))
      | some .help, none => (p.check c).map fun _ => .tell (.help (.command c))
      | some flag, none => do
        p.check c
        readArguments c (← p.addFlag c flag) rest

/-! ## The arguments of the program -/

/-- Reads what help is wanted for. -/
def readTopic : List String → Except Misuse Request
  | [] => .ok (.tell (.help .program))
  | name :: rest =>
    match Command.ofName? name, rest with
    | none, _ => .error (.wrong .program (.unknownCommand name) none (some .general))
    | some c, [] => .ok (.tell (.help (.command c)))
    | some c, more :: _ => .error (.wrong (.command c) (.unknownCommand more) none (some .general))

/-- A word that is not the name of a command. Commands with similar names may be meant. -/
def unknownCommand (name : String) : Misuse :=
  let tip := match similarTo name Command.name Command.all with
    | [] => none
    | commands => some (Tip.similarCommands commands)
  .wrong .program (.unknownCommand name) tip (some .general)

/-- A flag that the program does not have. One with a similar name may be meant, or one of a command
that is named later. -/
def unknownFlag (name : String) (rest : List String) : Misuse :=
  let problem := Problem.unexpectedArgument ("--" ++ name)
  match mostSimilar? name Flag.name Topic.program.flags with
  | some flag => .wrong .program problem (some (.similarFlag flag)) (some (.withFlags [flag]))
  | none =>
    let tip := rest.findSome? fun word => do
      let c ← Command.ofName? word
      let flag ← mostSimilar? name Flag.name (Topic.command c).flags
      return Tip.flagOfCommand c flag
    .wrong .program problem tip (some .general)

/-- What a flag of the program asks for. -/
def Flag.inquiry : Flag → Inquiry
  | version => .version
  | _ => .help .program

/-- Reads all arguments of the program. The name of a command may not stand behind `--`. -/
def Request.ofArguments : List String → Except Misuse Request
  | [] => .error .noCommand
  | argument :: rest =>
    match Argument.ofString argument with
    | .separator =>
      match rest with
      | [] => .error .noCommand
      | name :: _ =>
        match Command.ofName? name with
        | some c =>
          .error (.wrong .program (.unexpectedArgument name) (some (.commandBehindDashes c)) (some .general))
        | none => .error (unknownCommand name)
    | .word name =>
      match Command.ofName? name with
      | none => .error (unknownCommand name)
      | some .help => readTopic rest
      | some c => readArguments c ⟨[], []⟩ rest
    | .short letter =>
      match Topic.program.flags.find? fun flag => flag.letter? == some letter with
      | some flag => .ok (.tell flag.inquiry)
      | none =>
        let written := String.ofList ['-', letter]
        .error (.wrong .program (.unexpectedArgument written) none (some .general))
    | .long name value =>
      match Topic.program.flags.find? fun flag => flag.name == name, value with
      | none, _ => .error (unknownFlag name rest)
      | some flag, some value =>
        .error (.wrong .program (.unexpectedValue flag value) none (some (.withFlags [flag])))
      | some flag, none => .ok (.tell flag.inquiry)

end SqlDump.CommandLine
