import SqlDump.CommandLine
import SqlDump.Proofs.Plan
import SqlDump.Proofs.Text.Lossy
/-!
# Flags among the values

The flags of a command may stand before, between and behind its values, in any order. Reading the arguments
one by one comes to the same request in each case (`readArguments_arranged`), so that the program does what the
runs of a `Job` do and reports what they return (`run_arranged`). Arguments that it cannot follow leave the
storage as it is.
-/

namespace SqlDump.CommandLine

/-! ## Arguments in any arrangement -/

/-- Flags and values in one row, with the order of each kept. -/
inductive Arranged : List Flag → List String → List String → Prop
  | nil : Arranged [] [] []
  | flag {flag flags values arguments} : Arranged flags values arguments →
      Arranged (flag :: flags) values (flag.text :: arguments)
  | value {value flags values arguments} : Arranged flags values arguments →
      Arranged flags (value :: values) (value :: arguments)

/-- A value that can be taken for nothing else. -/
def IsValue (value : String) : Prop := value ≠ "" ∧ value.toList.head? ≠ some '-'

instance (value : String) : Decidable (IsValue value) := inferInstanceAs (Decidable (_ ∧ _))

theorem ofString_flag (flag : Flag) : Argument.ofString flag.text = .long flag.name none := by
  cases flag <;> decide

theorem ofString_value {value : String} (h : IsValue value) : Argument.ofString value = .word value := by
  unfold Argument.ofString
  split
  · next heq => exact absurd (by rw [heq]; rfl) h.2
  · next heq => exact absurd (by rw [heq]; rfl) h.2
  · next heq => exact absurd (by rw [heq]; rfl) h.2
  · rfl

section Reading

variable {c : Command} {p : Progress}

/-- The command reads one file and writes another. -/
def TakesFiles (c : Command) : Prop := (Topic.command c).parameters = [.inputFile, .outputFile]

/-- All values so far have a text. -/
def Filled (p : Progress) : Prop := ∀ value ∈ p.values, value ≠ ""

theorem checkValues_of_filled {topic : Topic} {parameters : List Parameter} {values : List String}
    (hfiles : .shell ∉ parameters) (h : ∀ value ∈ values, value ≠ "") :
    checkValues topic parameters values = .ok () := by
  induction parameters generalizing values with
  | nil => cases values <;> rfl
  | cons parameter parameters ih =>
    cases values with
    | nil => rfl
    | cons value values =>
      have hne : value ≠ "" := h value List.mem_cons_self
      have hcheck : checkValue topic parameter value = .ok () := by
        cases parameter with
        | shell => exact absurd List.mem_cons_self hfiles
        | _ => simp [checkValue, hne]
      have hrest := ih (fun hmem => hfiles (List.mem_cons_of_mem _ hmem))
        fun v hv => h v (List.mem_cons_of_mem _ hv)
      rw [checkValues, hcheck]
      exact hrest

theorem check_of_filled (hc : TakesFiles c) (hp : Filled p) : p.check c = .ok () := by
  apply checkValues_of_filled
  · rw [hc]
    decide
  · exact hp

theorem find_flag {flag : Flag} (h : flag ∈ (Topic.command c).flags) :
    ((Topic.command c).flags.find? fun f => f.name == flag.name) = some flag := by
  revert h
  cases c <;> cases flag <;> decide

/-- One step over a flag that is not in use. -/
theorem readArguments_flag {flag : Flag} (hc : TakesFiles c) (hp : Filled p)
    (hflag : flag ∈ (Topic.command c).flags) (hhelp : flag ≠ .help) (hfresh : flag ∉ p.used)
    (rest : List String) :
    readArguments c p (flag.text :: rest) = readArguments c ⟨p.used ++ [flag], p.values⟩ rest := by
  have hadd : p.addFlag c flag = .ok ⟨p.used ++ [flag], p.values⟩ := if_neg hfresh
  have hcheck := check_of_filled hc hp
  rw [readArguments, ofString_flag]
  dsimp only
  rw [find_flag hflag]
  cases flag with
  | help => exact absurd rfl hhelp
  | _ =>
    dsimp only
    rw [hcheck, hadd]
    rfl

/-- One step over a value for which there is room. -/
theorem readArguments_value {value : String} (hc : TakesFiles c) (hp : Filled p) (hvalue : IsValue value)
    (hroom : p.values.length < 2) (rest : List String) :
    readArguments c p (value :: rest) = readArguments c ⟨p.used, p.values ++ [value]⟩ rest := by
  have hlength : p.values.length < (Topic.command c).parameters.length := by
    rw [hc]
    exact hroom
  have hadd : p.addValue c value = .ok ⟨p.used, p.values ++ [value]⟩ := by
    unfold Progress.addValue
    rw [if_pos hlength, check_of_filled hc hp]
    rfl
  rw [readArguments, ofString_value hvalue]
  dsimp only
  rw [hadd]
  rfl

/-- Behind all flags and values the request is made, wherever they stood. -/
theorem readArguments_arranged {flags : List Flag} {values arguments : List String} (hc : TakesFiles c)
    (h : Arranged flags values arguments)
    (hflags : ∀ flag ∈ flags, flag ∈ (Topic.command c).flags ∧ flag ≠ .help)
    (hvalues : ∀ value ∈ values, IsValue value) (hp : Filled p)
    (hfresh : (p.used ++ flags).Nodup) (hroom : (p.values ++ values).length ≤ 2) :
    readArguments c p arguments = Progress.request ⟨p.used ++ flags, p.values ++ values⟩ c := by
  induction h generalizing p with
  | nil => simp [readArguments]
  | @flag flag flags values arguments _ ih =>
    obtain ⟨hmem, hhelp⟩ := hflags flag List.mem_cons_self
    have hnot : flag ∉ p.used := fun hused => List.disjoint_of_nodup_append hfresh hused List.mem_cons_self
    rw [readArguments_flag hc hp hmem hhelp hnot, ih]
    · simp
    · exact fun f hf => hflags f (List.mem_cons_of_mem _ hf)
    · exact hvalues
    · exact hp
    · simpa using hfresh
    · exact hroom
  | @value value flags values arguments _ ih =>
    have hvalue := hvalues value List.mem_cons_self
    have hlength : p.values.length < 2 := by
      simp only [List.length_append, List.length_cons] at hroom
      omega
    rw [readArguments_value hc hp hvalue hlength, ih]
    · simp
    · exact hflags
    · exact fun v hv => hvalues v (List.mem_cons_of_mem _ hv)
    · intro v hv
      rcases List.mem_append.1 hv with hv | hv
      · exact hp v hv
      · rw [List.mem_singleton.1 hv]
        exact hvalue.1
    · exact hfresh
    · simpa using hroom

end Reading

theorem ofArguments_arranged {c : Command} {flags : List Flag} {values arguments : List String}
    (hc : TakesFiles c) (h : Arranged flags values arguments) (hnodup : flags.Nodup)
    (hflags : ∀ flag ∈ flags, flag ∈ (Topic.command c).flags ∧ flag ≠ .help)
    (hvalues : ∀ value ∈ values, IsValue value) (hlength : values.length ≤ 2) :
    Request.ofArguments (c.name :: arguments) = Progress.request ⟨flags, values⟩ c := by
  have hread : Request.ofArguments (c.name :: arguments) = readArguments c ⟨[], []⟩ arguments := by
    cases c with
    | help => cases hc
    | _ => rfl
  rw [hread]
  apply readArguments_arranged hc h hflags hvalues
  · exact fun v hv => absurd hv List.not_mem_nil
  · exact hnodup
  · exact hlength

/-! ## What the program reports -/

/-- Some lines, each with its line feed. -/
def printed (lines : List String) : String := String.join (lines.map fun line => line ++ "\n")

/-- What is reported of a dump converted as a whole. -/
def schemaReport (input output : String) (dryRun : Bool) (stats : SchemaStats) : Outcome :=
  if dryRun then
    ⟨0, "", printed ["", "Conversion Statistics:",
      "  Input size: " ++ toString stats.inputBytes ++ " bytes",
      "  Output size: " ++ toString stats.outputBytes ++ " bytes",
      "", "(Dry run - no output written)"]⟩
  else
    ⟨0, printed ["Converted " ++ input ++ " to " ++ output, "Conversion completed successfully!"], ""⟩

/-- What is reported of the data of a dump. -/
def dataOnlyReport (input output : String) (dryRun : Bool) : Option DataOnly.Stats → Outcome
  | none =>
    ⟨0, printed ["No INSERT statements found in input file", "Data conversion completed successfully!"], ""⟩
  | some stats =>
    if dryRun then
      ⟨0, "", printed (["", "Conversion Statistics:",
        "  INSERT statements: " ++ toString stats.insertStatements,
        "  Timestamps converted: " ++ toString stats.epochs.converted] ++
        (if 0 < stats.epochs.unconverted then
          ["  Timestamps left as text: " ++ toString stats.epochs.unconverted]
        else []) ++ ["", "(Dry run - no output written)"])⟩
    else
      ⟨0, printed ["Converted " ++ toString stats.insertStatements ++ " INSERT statements from " ++ input ++
        " to " ++ output, "Data conversion completed successfully!"], ""⟩

theorem printed_append (lines more : List String) : printed (lines ++ more) = printed lines ++ printed more := by
  simp [printed]

/-- The numbers of a dry run are indented. -/
theorem dryRunText_eq (lines : List String) : dryRunText lines =
    printed (["", "Conversion Statistics:"] ++ lines.map (fun line => "  " ++ line) ++
      ["", "(Dry run - no output written)"]) := by
  have hfront : "\nConversion Statistics:\n" = printed ["", "Conversion Statistics:"] := by
    simp [printed]
  have hback : "\n(Dry run - no output written)\n" = printed ["", "(Dry run - no output written)"] := by
    simp [printed]
  have hlines : String.join (lines.map fun line => "  " ++ line ++ "\n") =
      printed (lines.map fun line => "  " ++ line) := by
    simp [printed, Function.comp_def]
  rw [printed_append, printed_append]
  exact congrArg₂ (· ++ ·) (congrArg₂ (· ++ ·) hfront hlines) hback

theorem schemaOutcome_eq (input output : String) (dryRun : Bool) :
    schemaOutcome ⟨.ofString input, .ofString output, dryRun⟩ = schemaReport input output dryRun := by
  funext stats
  cases dryRun with
  | true =>
    simp only [schemaOutcome, schemaReport, dryRunText_eq, List.map_cons, List.map_nil, ← String.append_assoc,
      String.reduceAppend]
    rfl
  | false => simp [schemaOutcome, schemaReport, Outcome.success, printed, String.append_assoc]

theorem dataOnlyOutcome_eq (input output : String) (dryRun : Bool) :
    dataOnlyOutcome ⟨.ofString input, .ofString output, dryRun⟩ = dataOnlyReport input output dryRun := by
  funext stats
  cases stats with
  | none => simp [dataOnlyOutcome, dataOnlyReport, Outcome.success, printed]
  | some stats =>
    cases dryRun with
    | true =>
      simp only [dataOnlyOutcome, dataOnlyReport, dryRunText_eq, if_true]
      split
      · simp only [List.map_cons, List.map_nil, List.map_append, ← String.append_assoc, String.reduceAppend]
        rfl
      · simp only [List.map_cons, List.map_nil, List.map_append, ← String.append_assoc, String.reduceAppend]
        rfl
    | false => simp [dataOnlyOutcome, dataOnlyReport, Outcome.success, printed, String.append_assoc]

/-! ## The whole program -/

/-- The program ended as a run did: it left the same storage behind, and printed the report of what was
returned, or the message of the failure. -/
structure EndsAs {α : Type} (report : α → Outcome) (ended : Outcome × Storage)
    (result : Except Dump.Failure α × Storage) : Prop where
  storage : ended.2 = result.2
  ok : ∀ {a}, result.1 = .ok a → ended.1 = report a
  error : ∀ {failure}, result.1 = .error failure → ended.1 = ⟨1, "", printed ["Error: " ++ failure.message]⟩
  code_eq_zero_iff : ended.1.code = 0 ↔ ∃ a, result.1 = .ok a

section EndsAs

variable {α : Type} {report : α → Outcome}

theorem EndsAs.of_ok {a : α} (hcode : (report a).code = 0) (s : Storage) :
    EndsAs report (report a, s) (.ok a, s) where
  storage := rfl
  ok h := by
    cases h
    rfl
  error h := by cases h
  code_eq_zero_iff := by simp [hcode]

theorem EndsAs.of_error (failure : Dump.Failure) (s : Storage) :
    EndsAs report (.failure failure.message, s) (.error failure, s) where
  storage := rfl
  ok h := by cases h
  error h := by
    cases h
    simp [Outcome.failure, printed, String.append_assoc]
  code_eq_zero_iff := by simp [Outcome.failure]

/-- A plan with a report of its result, taken to its end. -/
theorem EndsAs.of_plan (hcode : ∀ a, (report a).code = 0) (p : Dump.Plan α) (s : Storage) :
    EndsAs report (conclude (p >>= fun a => pure (report a)) s) (p.onStorage s) := by
  unfold conclude
  rw [Dump.Plan.onStorage_bind_pure]
  rcases p.onStorage s with ⟨failure | a, s'⟩
  · exact .of_error failure s'
  · exact .of_ok (hcode a) s'

end EndsAs

theorem code_schemaOutcome (job : Job) (stats : SchemaStats) : (schemaOutcome job stats).code = 0 := by
  unfold schemaOutcome
  split <;> rfl

theorem code_dataOnlyOutcome (job : Job) (stats : Option DataOnly.Stats) :
    (dataOnlyOutcome job stats).code = 0 := by
  unfold dataOnlyOutcome
  split
  · rfl
  · split <;> rfl

/-- What the program is asked to do ends as a run does, or changes nothing. -/
theorem endsAs_request (script : Shell → String) (now : Time.Stamp) (s : Storage) (request : Request) :
    match request with
    | .convert job => EndsAs (schemaOutcome job) (conclude (request.plan script now) s) (job.runSchema s)
    | .dataOnly job zone =>
      EndsAs (dataOnlyOutcome job) (conclude (request.plan script now) s) (job.runDataOnly zone now s)
    | .tell inquiry => conclude (request.plan script now) s = (.success (inquiry.text script), s) := by
  cases request with
  | convert job => exact .of_plan (code_schemaOutcome job) job.schemaPlan s
  | dataOnly job zone => exact .of_plan (code_dataOnlyOutcome job) (job.dataOnlyPlan zone now) s
  | tell inquiry => rfl

theorem EndsAs.code_ne_two {α : Type} {report : α → Outcome} {ended : Outcome × Storage}
    {result : Except Dump.Failure α × Storage} (h : EndsAs report ended result) : ended.1.code ≠ 2 := by
  rcases hresult : result.1 with failure | a
  · simp [h.error hresult]
  · simp [h.code_eq_zero_iff.2 ⟨a, hresult⟩]

theorem code_request (script : Shell → String) (now : Time.Stamp) (s : Storage) (request : Request) :
    (conclude (request.plan script now) s).1.code ≠ 2 := by
  have h := endsAs_request script now s request
  cases request with
  | convert job => exact h.code_ne_two
  | dataOnly job zone => exact h.code_ne_two
  | tell inquiry => simp [h, Outcome.success]

section Commands

variable {flags : List Flag} {arguments : List String} {input output : String} (hinput : IsValue input)
  (houtput : IsValue output)

include hinput houtput

theorem ofArguments_files {c : Command} (hc : TakesFiles c) (hnodup : flags.Nodup)
    (hflags : ∀ flag ∈ flags, flag ∈ (Topic.command c).flags ∧ flag ≠ .help)
    (h : Arranged flags [input, output] arguments) :
    Request.ofArguments (c.name :: arguments) = Progress.request ⟨flags, [input, output]⟩ c ∧
      Progress.check ⟨flags, [input, output]⟩ c = .ok () := by
  have hvalues : ∀ value ∈ [input, output], IsValue value := by
    simp [hinput, houtput]
  constructor
  · exact ofArguments_arranged hc h hnodup hflags hvalues (Nat.le_refl 2)
  · exact check_of_filled hc fun value hvalue => (hvalues value hvalue).1

theorem ofArguments_convert (hnodup : flags.Nodup) (hflags : flags ⊆ [.dryRun])
    (h : Arranged flags [input, output] arguments) : Request.ofArguments ("convert" :: arguments) =
      .ok (.convert ⟨.ofString input, .ofString output, decide (Flag.dryRun ∈ flags)⟩) := by
  have key : ∀ flag ∈ [Flag.dryRun], flag ∈ (Topic.command .convert).flags ∧ flag ≠ .help := by decide
  obtain ⟨hread, hcheck⟩ := ofArguments_files (c := .convert) hinput houtput rfl hnodup
    (fun flag hflag => key flag (hflags hflag)) h
  apply hread.trans
  unfold Progress.request
  rw [hcheck]
  rfl

theorem ofArguments_dataOnly (hnodup : flags.Nodup) (hflags : flags ⊆ [.utc, .dryRun])
    (h : Arranged flags [input, output] arguments) : Request.ofArguments ("data-only" :: arguments) =
      .ok (.dataOnly ⟨.ofString input, .ofString output, decide (Flag.dryRun ∈ flags)⟩
        (if Flag.utc ∈ flags then .utc else .localTime)) := by
  have key : ∀ flag ∈ [Flag.utc, .dryRun], flag ∈ (Topic.command .dataOnly).flags ∧ flag ≠ .help := by decide
  obtain ⟨hread, hcheck⟩ := ofArguments_files (c := .dataOnly) hinput houtput rfl hnodup
    (fun flag hflag => key flag (hflags hflag)) h
  apply hread.trans
  unfold Progress.request
  rw [hcheck]
  rfl

end Commands

theorem run_of_ok {script : Shell → String} {now : Time.Stamp} {s : Storage} {arguments : List String}
    {request : Request} (h : Request.ofArguments arguments = .ok request) :
    run script now arguments s = conclude (request.plan script now) s := by
  rw [run, plan, h]

theorem run_of_error {script : Shell → String} {now : Time.Stamp} {s : Storage} {arguments : List String}
    {misuse : Misuse} (h : Request.ofArguments arguments = .error misuse) :
    run script now arguments s = (.misuse misuse, s) := by
  rw [run, plan, h]
  rfl

/-- The program does what the runs do, wherever the flags stand, and reports what they return. Misuse leaves the
storage as it is. -/
theorem run_arranged (script : Shell → String) (now : Time.Stamp) (s : Storage) {input output : String}
    (hinput : IsValue input) (houtput : IsValue output) :
    (∀ flags arguments, flags.Nodup → flags ⊆ [.dryRun] → Arranged flags [input, output] arguments →
      EndsAs (schemaReport input output (decide (Flag.dryRun ∈ flags)))
        (run script now ("convert" :: arguments) s)
        (Job.runSchema ⟨.ofString input, .ofString output, decide (Flag.dryRun ∈ flags)⟩ s)) ∧
    (∀ flags arguments, flags.Nodup → flags ⊆ [.utc, .dryRun] → Arranged flags [input, output] arguments →
      EndsAs (dataOnlyReport input output (decide (Flag.dryRun ∈ flags)))
        (run script now ("data-only" :: arguments) s)
        (Job.runDataOnly ⟨.ofString input, .ofString output, decide (Flag.dryRun ∈ flags)⟩
          (if Flag.utc ∈ flags then .utc else .localTime) now s)) ∧
    ∀ arguments, (run script now arguments s).1.code = 2 → (run script now arguments s).2 = s := by
  refine ⟨?_, ?_, ?_⟩
  · intro flags arguments hnodup hflags h
    rw [run_of_ok (ofArguments_convert hinput houtput hnodup hflags h), ← schemaOutcome_eq]
    exact endsAs_request script now s (.convert _)
  · intro flags arguments hnodup hflags h
    rw [run_of_ok (ofArguments_dataOnly hinput houtput hnodup hflags h), ← dataOnlyOutcome_eq]
    exact endsAs_request script now s (.dataOnly _ _)
  · intro arguments hcode
    cases hrequest : Request.ofArguments arguments with
    | error misuse => rw [run_of_error hrequest]
    | ok request =>
      rw [run_of_ok hrequest] at hcode
      exact absurd hcode (code_request script now s request)

/-- One flag before both values and one between them. -/
theorem run_arranged_between :
    let now : Time.Stamp := ⟨⟨2024, 1, 1⟩, 0, 0, 0⟩
    let s := Storage.fresh.put [[0x68], [0x64], [0x66]] (.file "INSERT INTO t VALUES(1609459200);".toUTF8) rfl
    Arranged [.utc, .dryRun] ["f", "x"] ["--utc", "f", "--dry-run", "x"] ∧
      run (fun _ => "") now ["data-only", "--utc", "f", "--dry-run", "x"] s =
        (⟨0, "", printed ["", "Conversion Statistics:", "  INSERT statements: 1", "  Timestamps converted: 1", "",
          "(Dry run - no output written)"]⟩, s) := by
  intro now s
  have harranged : Arranged [.utc, .dryRun] ["f", "x"] ["--utc", "f", "--dry-run", "x"] :=
    .flag (.value (.flag (.value .nil)))
  have hinput : IsValue "f" := by decide
  have houtput : IsValue "x" := by decide
  have hends := (run_arranged (fun _ => "") now s hinput houtput).2.1 [.utc, .dryRun] _ (by decide)
    (fun _ h => h) harranged
  have hresult : (Job.runDataOnly ⟨.ofString "f", .ofString "x", true⟩ .utc now s).1 =
      .ok (some ⟨1, ⟨1, 0⟩⟩) := by
    decide +kernel
  refine ⟨harranged, Prod.ext ?_ ?_⟩
  · rw [hends.ok hresult]
    decide
  · exact hends.storage.trans rfl

end SqlDump.CommandLine
