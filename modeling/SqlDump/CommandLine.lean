import SqlDump.CommandLine.Request
/-!
# Command line

The program follows its arguments and reports what it did. Results are reported on standard output;
the numbers of a dry run, failures and misuse on standard error.
-/

namespace SqlDump.CommandLine

/-- How the program ends: its exit code, and what it prints on standard output and standard error. -/
structure Outcome where
  code : UInt32
  stdout : String
  stderr : String
deriving DecidableEq, Repr

/-- The program did what it was asked to do. -/
def Outcome.success (stdout : String) : Outcome := ⟨0, stdout, ""⟩

/-- The program failed while it did what it was asked to do. -/
def Outcome.failure (message : String) : Outcome := ⟨1, "", "Error: " ++ message ++ "\n"⟩

/-- The program was not asked properly. -/
def Outcome.misuse (misuse : Misuse) : Outcome := ⟨2, "", misuse.message⟩

/-- The numbers of a dry run. -/
def dryRunText (lines : List String) : String :=
  "\nConversion Statistics:\n" ++ String.join (lines.map fun line => "  " ++ line ++ "\n") ++
    "\n(Dry run - no output written)\n"

/-- What is reported about the conversion of a whole dump. -/
def schemaOutcome (job : Job) (stats : SchemaStats) : Outcome :=
  if job.dryRun then
    ⟨0, "", dryRunText
      ["Input size: " ++ toString stats.inputBytes ++ " bytes",
        "Output size: " ++ toString stats.outputBytes ++ " bytes"]⟩
  else
    .success ("Converted " ++ job.input.display ++ " to " ++ job.output.display ++
      "\nConversion completed successfully!\n")

/-- What is reported about the conversion of the data. -/
def dataOnlyOutcome (job : Job) : Option DataOnly.Stats → Outcome
  | none =>
    .success "No INSERT statements found in input file\nData conversion completed successfully!\n"
  | some stats =>
    if job.dryRun then
      ⟨0, "", dryRunText
        (["INSERT statements: " ++ toString stats.insertStatements,
          "Timestamps converted: " ++ toString stats.epochs.converted] ++
          if 0 < stats.epochs.unconverted then
            ["Timestamps left as text: " ++ toString stats.epochs.unconverted]
          else [])⟩
    else
      .success ("Converted " ++ toString stats.insertStatements ++ " INSERT statements from " ++
        job.input.display ++ " to " ++ job.output.display ++ "\nData conversion completed successfully!\n")

section Program

variable (script : Shell → String)

/-- The answer to an inquiry, if `script` tells the completion script of each shell. -/
def Inquiry.text : Inquiry → String
  | completions shell => script shell
  | help topic => topic.help
  | version => versionText

variable (now : Time.Stamp)

/-- How a request is met. -/
def Request.plan : Request → Dump.Plan Outcome
  | convert job => return schemaOutcome job (← job.schemaPlan)
  | dataOnly job zone => return dataOnlyOutcome job (← job.dataOnlyPlan zone now)
  | tell inquiry => return .success (inquiry.text script)

/-- What the program does with its arguments. -/
def plan (arguments : List String) : Dump.Plan Outcome :=
  match Request.ofArguments arguments with
  | .error misuse => return .misuse misuse
  | .ok request => request.plan script now

/-- How the program ends when its plan has come to a result or to the message of a failure. -/
def Outcome.ofResult : Except String Outcome → Outcome
  | .ok outcome => outcome
  | .error message => .failure message

/-- Takes the steps of the program on a storage. -/
def conclude (p : Dump.Plan Outcome) (s : Storage) : Outcome × Storage :=
  let (result, s) := p.onStorage s
  (.ofResult (result.mapError Dump.Failure.message), s)

/-- Runs the program with its arguments on a storage. -/
def run (arguments : List String) (s : Storage) : Outcome × Storage :=
  conclude (plan script now arguments) s

end Program

end SqlDump.CommandLine
