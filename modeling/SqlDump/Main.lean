import SqlDump.CommandLine
import Std.Time.DateTime.Timestamp
/-!
# Program

The program on the files of the machine. It takes the steps of its plan there as a run on a storage takes
them (`perform`).
-/

namespace SqlDump.Main

/-- The text of an error of the operating system, with its number. -/
def errorText (e : IO.Error) : String :=
  let numbered (code : UInt32) (details : String) := details ++ " (os error " ++ toString code ++ ")"
  match e with
  | .alreadyExists _ code details | .otherError code details | .resourceBusy code details
  | .resourceVanished code details | .unsupportedOperation code details | .hardwareFault code details
  | .unsatisfiedConstraints code details | .illegalOperation code details | .protocolError code details
  | .timeExpired code details | .interrupted _ code details | .noFileOrDirectory _ code details
  | .invalidArgument _ code details | .permissionDenied _ code details
  | .resourceExhausted _ code details | .inappropriateType _ code details
  | .noSuchThing _ code details => numbered code details
  | .unexpectedEof => "unexpected end of file"
  | .userError message => message

/-- Does something with a file. A failure tells what was being done to which file. -/
def during {α : Type} (stage : Dump.Stage) (path : Storage.Path) (action : IO α) : ExceptT String IO α := do
  match ← action.toIO' with
  | .ok result => return result
  | .error e => throw (stage.message ++ path.display ++ ": " ++ errorText e)

/-- Takes the steps of a plan on the files of the machine. -/
def perform {α : Type} : Dump.Plan α → ExceptT String IO α
  | .done (.ok result) => return result
  | .done (.error failure) => throw failure.message
  | .readFile path next => do
    let handle ← during .opening path (IO.FS.Handle.mk path.display .read)
    perform (next (← during .reading path handle.readBinToEnd))
  | .makeDirectories path next => do
    during .creating path (IO.FS.createDirAll path.display)
    perform next
  | .writeFile path content next => do
    during .writing path (IO.FS.writeBinFile path.display content)
    perform next

/-- Runs the program with its arguments, prints its texts, and ends with its exit code. Whoever builds the
program adds the completion scripts. -/
def run (script : CommandLine.Shell → String) (arguments : List String) : IO UInt32 := do
  let time ← Std.Time.Timestamp.now
  let now := Time.Stamp.ofSeconds (time.toSecondsSinceUnixEpoch.val + Time.Zone.localTime.offset)
  let outcome := CommandLine.Outcome.ofResult (← (perform (CommandLine.plan script now arguments)).run)
  (← IO.getStdout).putStr outcome.stdout
  (← IO.getStderr).putStr outcome.stderr
  return outcome.code

end SqlDump.Main
