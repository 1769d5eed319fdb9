import LS8.CommandLine.Report
import LS8.Proofs.Operations
import LS8.Proofs.Program.WholeText
import LS8.Proofs.Tracing

/-!
# Reports

The command reads a program text, loads its image into a machine after a reset and
lets it run; the report says how far that went.  Asking for a trace adds lines in
front of the error stream, one for each machine in front of a step, and nothing
else to the report.
-/

namespace LS8
namespace CommandLine

open Session

/-- The configuration that is asked for by the two flags and a limit, if there is
one. -/
def settings (strict tracing : Bool) (limit : Option Nat) : Configuration where
  policy := if strict then .fault else .stall
  limit
  tracing

/-- The request with a trace asked for. -/
def Request.traced (request : Request) : Request :=
  { request with
    configuration := { request.configuration with tracing := true } }

namespace Draft

/-- The draft with a trace asked for. -/
def traced (draft : Draft) : Draft :=
  { draft with tracing := true }

section Traced

variable (draft : Draft) (text : String)

theorem takePath_traced :
    draft.traced.takePath text = (draft.takePath text).map traced := by
  simp only [takePath, traced]
  split
  · rfl
  · split <;> rfl

theorem takeStrict_traced :
    draft.traced.takeStrict = draft.takeStrict.map traced := by
  obtain ⟨path, tracing, strict, limit⟩ := draft
  cases strict <;> rfl

theorem takeLimit_traced :
    draft.traced.takeLimit text = (draft.takeLimit text).map traced := by
  simp only [takeLimit, traced]
  split <;> rfl

end Traced

variable {draft : Draft} {request : Request} {rest : List Item}

/-- Items are taken from the draft that the first of them leaves. -/
theorem exists_of_bind_take
    {taken : Except UsageError Draft}
    (accepted : (do take (← taken) rest) = .ok (.execute request)) :
    ∃ next, taken = .ok next ∧ next.take rest = .ok (.execute request) := by
  cases taken with
  | error error => contradiction
  | ok next => exact ⟨next, rfl, accepted⟩

theorem exists_of_bind_take_traced
    {taken : Except UsageError Draft}
    (accepted : (do take (← taken.map traced) rest) = .ok (.execute request)) :
    ∃ next, taken = .ok next ∧ next.traced.take rest = .ok (.execute request) := by
  cases taken with
  | error error => contradiction
  | ok next => exact ⟨next, rfl, accepted⟩

/-- A trace that is asked for is not taken back. -/
theorem tracing_of_take
    {items : List Item}
    (accepted : draft.traced.take items = .ok (.execute request)) :
    request.configuration.tracing = true := by
  induction items generalizing draft with
  | nil =>
      simp only [take, finish] at accepted
      split at accepted
      · contradiction
      · rw [← Command.execute.inj (Except.ok.inj accepted)]
        rfl
  | cons item rest inductionHypothesis =>
      cases item with
      | help => exact Command.noConfusion (Except.ok.inj accepted)
      | refused error => contradiction
      | trace => contradiction
      | path text =>
          rw [take, takePath_traced] at accepted
          obtain ⟨next, _, accepted⟩ := exists_of_bind_take_traced accepted
          exact inductionHypothesis accepted
      | strict =>
          rw [take, takeStrict_traced] at accepted
          obtain ⟨next, _, accepted⟩ := exists_of_bind_take_traced accepted
          exact inductionHypothesis accepted
      | limit text =>
          rw [take, takeLimit_traced] at accepted
          obtain ⟨next, _, accepted⟩ := exists_of_bind_take_traced accepted
          exact inductionHypothesis accepted

/-- Asking for a trace first changes nothing else in what is asked for. -/
theorem take_traced
    {items : List Item}
    (quiet : request.configuration.tracing = false)
    (accepted : draft.take items = .ok (.execute request)) :
    draft.traced.take items = .ok (.execute request.traced) := by
  induction items generalizing draft with
  | nil =>
      simp only [take, finish] at accepted ⊢
      split at accepted
      · contradiction
      case h_2 path path_eq =>
        rw [← Command.execute.inj (Except.ok.inj accepted)]
        simp only [traced, path_eq]
        rfl
  | cons item rest inductionHypothesis =>
      cases item with
      | help => exact Command.noConfusion (Except.ok.inj accepted)
      | refused error => contradiction
      | trace =>
          obtain ⟨next, taken, accepted⟩ := exists_of_bind_take accepted
          rw [takeTrace] at taken
          split at taken
          · contradiction
          · rw [← Except.ok.inj taken] at accepted
            have tracing : request.configuration.tracing = true :=
              tracing_of_take accepted
            rw [quiet] at tracing
            contradiction
      | path text =>
          obtain ⟨next, taken, accepted⟩ := exists_of_bind_take accepted
          rw [take, takePath_traced, taken]
          exact inductionHypothesis accepted
      | strict =>
          obtain ⟨next, taken, accepted⟩ := exists_of_bind_take accepted
          rw [take, takeStrict_traced, taken]
          exact inductionHypothesis accepted
      | limit text =>
          obtain ⟨next, taken, accepted⟩ := exists_of_bind_take accepted
          rw [take, takeLimit_traced, taken]
          exact inductionHypothesis accepted

end Draft

/-- The option for a trace can be put in front of arguments that do not ask for
one. -/
theorem read_trace_cons
    {arguments : List String}
    {request : Request}
    (quiet : request.configuration.tracing = false)
    (accepted : read arguments = .ok (.execute request)) :
    read ("--trace" :: arguments) = .ok (.execute request.traced) := by
  rw [read, items, itemsFrom, Argument.ofText_trace]
  exact Draft.take_traced quiet accepted

/-- A program text lies at a path, and its image fits into memory. -/
structure Loads (files : FileSystem) (path : String) (image : List UInt8) : Prop where
  reads : Program.ofPath files path = .ok image
  fits : image.length ≤ Memory.size

/-- A session with an image in the memory of a machine after a reset. -/
def ready (configuration : Configuration) (image : List UInt8) : Session :=
  (Session.start configuration .unbounded).withMachine
    { Machine.initial with memory := Memory.zeroed.overlay image }

/-- Why no program is loaded from a path. -/
inductive Unloadable (files : FileSystem) (path : String) : LoadError → Prop where
  /-- Nothing is found there. -/
  | missing :
      files path = .missing →
      Unloadable files path (.notFound path)
  /-- A directory is found there. -/
  | directory :
      files path = .directory →
      Unloadable files path (.unreadable .isDirectory)
  /-- The bytes found there are not well-formed UTF-8. -/
  | invalid {contents : List UInt8} :
      files path = .file contents →
      ¬contents.toByteArray.IsValidUTF8 →
      Unloadable files path (.unreadable .invalidUtf8)
  /-- The image found there does not fit. -/
  | tooLarge {contents image : List UInt8} :
      files path = .file contents →
      Program.parse contents = .ok image →
      Memory.size < image.length →
      Unloadable files path (.imageTooLarge image.length)

variable {files : FileSystem} {path : String} {image : List UInt8}

theorem Loads.of_parse
    {contents : List UInt8}
    (found : files path = .file contents)
    (parsed : Program.parse contents = .ok image)
    (fits : image.length ≤ Memory.size) :
    Loads files path image where
  reads := by
    rw [Program.ofPath, found]
    exact parsed
  fits := fits

theorem Loads.prepare_eq
    (loads : Loads files path image)
    (configuration : Configuration) :
    prepare files ⟨path, configuration⟩ = .ok (ready configuration image) := by
  rw [prepare, loads.reads]
  exact load_of_fits _ loads.fits

theorem Unloadable.prepare_eq
    {error : LoadError}
    (unloadable : Unloadable files path error)
    (configuration : Configuration) :
    prepare files ⟨path, configuration⟩ = .error error := by
  cases unloadable with
  | missing found =>
      rw [prepare, Program.ofPath, found]
      rfl
  | directory found =>
      rw [prepare, Program.ofPath, found]
      rfl
  | invalid found invalid =>
      rw [prepare, Program.ofPath, found]
      dsimp only
      rw [Program.parse_of_not_isValidUTF8 invalid]
      rfl
  | tooLarge found parsed tooLarge =>
      rw [prepare, Program.ofPath, found]
      dsimp only
      rw [parsed]
      exact load_of_tooLarge _ tooLarge

/-- A program is loaded from a path, or there is a reason why not. -/
theorem loads_or_unloadable (files : FileSystem) (path : String) :
    (∃ image, Loads files path image) ∨ ∃ error, Unloadable files path error := by
  cases found : files path with
  | missing => exact .inr ⟨_, .missing found⟩
  | directory => exact .inr ⟨_, .directory found⟩
  | file contents =>
      rcases Decidable.em contents.toByteArray.IsValidUTF8 with valid | invalid
      · obtain ⟨image, parsed⟩ := Program.exists_parse_of_isValidUTF8 valid
        rcases Nat.lt_or_ge Memory.size image.length with tooLarge | fits
        · exact .inr ⟨_, .tooLarge found parsed tooLarge⟩
        · exact .inl ⟨_, .of_parse found parsed fits⟩
      · exact .inr ⟨_, .invalid found invalid⟩

/-- The report with lines in front of the error stream, each with a line feed. -/
def Report.withTrace (report : Report) (lines : List String) : Report :=
  { report with
    stderr :=
      String.ofList (lines.flatMap fun line => line.toList ++ ['\n']) ++
        report.stderr }

theorem unlines_eq (lines : List String) :
    unlines lines =
      String.ofList (lines.flatMap fun line => line.toList ++ ['\n']) := by
  rw [← String.toList_inj, unlines, String.toList_join, List.flatMap_map,
    String.toList_ofList]
  simp

section Reporting

variable (path : String) (session : Session) (outcome : Outcome)

theorem code_runReport_eq_zero_iff :
    (runReport path session outcome).exit.code = 0 ↔
      ∃ cycles, outcome = .halted cycles := by
  cases outcome with
  | halted cycles => exact ⟨fun _ => ⟨cycles, rfl⟩, fun _ => rfl⟩
  | failed error => simp [runReport, runFailure?, Exit.code]
  | endless => simp [runReport, runFailure?, Exit.code]

theorem code_runReport_ne_two :
    (runReport path session outcome).exit.code ≠ 2 := by
  cases outcome <;> simp [runReport, runFailure?, Exit.code]

theorem stdout_runReport :
    (runReport path session outcome).stdout = session.sink.written := by
  unfold runReport
  split <;> rfl

/-- A trace stands in front of what the report without it says. -/
theorem runReport_eq_withTrace
    {quiet : Session}
    (sink_eq : quiet.sink = session.sink)
    (untraced : quiet.trace = #[]) :
    runReport path session outcome =
      (runReport path quiet outcome).withTrace session.trace.toList := by
  cases outcome with
  | halted cycles =>
      simp [runReport, runFailure?, Report.withTrace, sink_eq, untraced, unlines_eq]
  | failed error =>
      simp [runReport, runFailure?, Report.withTrace, sink_eq, untraced, unlines_eq]
  | endless =>
      simp [runReport, runFailure?, Report.withTrace, sink_eq, untraced, unlines_eq]

end Reporting

theorem Loads.execute_eq
    (loads : Loads files path image)
    (configuration : Configuration) :
    execute files ⟨path, configuration⟩ =
      runReport path (ready configuration image).run.1
        (ready configuration image).run.2 := by
  rw [execute, loads.prepare_eq]

theorem Unloadable.execute_eq
    {error : LoadError}
    (unloadable : Unloadable files path error)
    (configuration : Configuration) :
    execute files ⟨path, configuration⟩ = loadReport path error := by
  rw [execute, unloadable.prepare_eq]

theorem invoke_of_accepted
    {arguments : List String}
    {request : Request}
    (accepted : read arguments = .ok (.execute request))
    (files : FileSystem) :
    invoke files arguments = execute files request := by
  rw [invoke, accepted]

theorem invoke_of_refused
    {arguments : List String}
    {error : UsageError}
    (refused : read arguments = .error error)
    (files : FileSystem) :
    invoke files arguments = usageReport error := by
  rw [invoke, refused]

section Execution

variable (files path) (configuration : Configuration)

/-- Nothing else than that nothing is found at the path gives the code 2. -/
theorem code_execute_eq_two_iff :
    (execute files ⟨path, configuration⟩).exit.code = 2 ↔ files path = .missing := by
  constructor
  · intro code_eq
    rcases loads_or_unloadable files path with ⟨image, loads⟩ | ⟨error, unloadable⟩
    · rw [loads.execute_eq] at code_eq
      exact absurd code_eq (code_runReport_ne_two _ _ _)
    · rw [unloadable.execute_eq] at code_eq
      cases unloadable with
      | missing found => exact found
      | directory | invalid | tooLarge => simp [loadReport, Exit.code] at code_eq
  · intro found
    rw [(Unloadable.missing found).execute_eq]
    rfl

end Execution

section Tracing

variable (image : List UInt8) (strict : Bool) (limit : Option Nat)

/-- The sessions that are ready with and without a trace run alike. -/
theorem ready_alike :
    (ready (settings strict false limit) image).Alike
      (ready (settings strict true limit) image) :=
  ⟨rfl, rfl, rfl⟩

/-- The report on a traced run that ends has the lines of the trace in front. -/
theorem runReport_run_of_tracing
    (path : String)
    (ends : (ready (settings strict false limit) image).run.2 ≠ .endless) :
    let quiet := ready (settings strict false limit) image
    let traced := ready (settings strict true limit) image
    ∃ count,
      quiet.TraceLength quiet.run.2 count ∧
        runReport path traced.run.1 traced.run.2 =
          (runReport path quiet.run.1 quiet.run.2).withTrace
            (quiet.traceLines count) := by
  intro quiet traced
  have alike : quiet.Alike traced := ready_alike image strict limit
  obtain ⟨last_alike, outcome_eq⟩ := alike.run_eq rfl
  have traced_ends : traced.run.2 ≠ .endless := by
    rw [← outcome_eq]
    exact ends
  obtain ⟨count, length, trace_eq⟩ := trace_run_of_tracing rfl rfl traced_ends
  refine ⟨count, ?_, ?_⟩
  · rw [outcome_eq]
    exact alike.symm.traceLength length
  · have untraced : quiet.run.1.trace = #[] := trace_run_of_quiet rfl
    rw [runReport_eq_withTrace path traced.run.1 _ last_alike.sink_eq untraced,
      ← outcome_eq, trace_eq, alike.traceLines_eq]
    rfl

end Tracing

/-- The report of a program that was not loaded, though something was found. -/
structure Report.IsRefusal (report : Report) : Prop where
  code_eq : report.exit.code = 3
  stdout_eq : report.stdout = ""

/-- The report of a run: the code tells whether the machine has halted, and what it
wrote is there even if it then failed. -/
structure Report.IsOfRun (report : Report) (session : Session) : Prop where
  code_eq_zero_iff : report.exit.code = 0 ↔ ∃ cycles, session.run.2 = .halted cycles
  code_of_failed : ∀ error, session.run.2 = .failed error → report.exit.code = 3
  stdout_eq : report.stdout = session.run.1.sink.written

theorem isOfRun_runReport (path : String) (session : Session) :
    (runReport path session.run.1 session.run.2).IsOfRun session where
  code_eq_zero_iff := code_runReport_eq_zero_iff path _ _
  code_of_failed := by
    intro error failed
    rw [failed]
    rfl
  stdout_eq := stdout_runReport path _ _

/-- The report tells what is found at the path and how the run ends, and a trace only
puts its lines in front of the error stream. -/
theorem command_runs_program
    {arguments : List String}
    {path : String}
    {strict tracing : Bool}
    {limit : Option Nat}
    (accepted :
      read arguments = .ok (.execute ⟨path, settings strict tracing limit⟩))
    (files : FileSystem) :
    let report := invoke files arguments
    (report.exit.code = 2 ↔ files path = .missing) ∧
      (files path = .missing →
        report.stdout = "" ∧
          report.stderr = "error opening file " ++ path ++ "\n") ∧
      (files path = .directory → report.IsRefusal) ∧
      (∀ contents, files path = .file contents →
        (¬contents.toByteArray.IsValidUTF8 → report.IsRefusal) ∧
          (contents.toByteArray.IsValidUTF8 →
            ∃ image, Program.parse contents = .ok image ∧
              (256 < image.length → report.IsRefusal) ∧
              (image.length ≤ 256 →
                let session := ready (settings strict tracing limit) image
                (∀ bound, limit = some bound → session.run.2 ≠ .endless) ∧
                  report.IsOfRun session))) ∧
      (tracing = false →
        read ("--trace" :: arguments) =
            .ok (.execute ⟨path, settings strict true limit⟩) ∧
          ∀ traced,
            read traced = .ok (.execute ⟨path, settings strict true limit⟩) →
            ((¬∃ image, Loads files path image) →
              invoke files traced = report) ∧
            ∀ image, Loads files path image →
              let session := ready (settings strict false limit) image
              session.run.2 ≠ .endless →
              ∃ count,
                session.TraceLength session.run.2 count ∧
                  invoke files traced =
                    report.withTrace (session.traceLines count)) := by
  intro report
  have report_eq : report = execute files ⟨path, settings strict tracing limit⟩ :=
    invoke_of_accepted accepted files
  have unloaded {error : LoadError} (unloadable : Unloadable files path error) :
      report = loadReport path error := by
    rw [report_eq, unloadable.execute_eq]
  refine ⟨?_, ?_, ?_, ?_, ?_⟩
  · rw [report_eq]
    exact code_execute_eq_two_iff files path _
  · intro found
    rw [unloaded (.missing found)]
    exact ⟨rfl, rfl⟩
  · intro found
    rw [unloaded (.directory found)]
    exact ⟨rfl, rfl⟩
  · intro contents found
    refine ⟨?_, ?_⟩
    · intro invalid
      rw [unloaded (.invalid found invalid)]
      exact ⟨rfl, rfl⟩
    · intro valid
      obtain ⟨image, parsed⟩ := Program.exists_parse_of_isValidUTF8 valid
      refine ⟨image, parsed, ?_, ?_⟩
      · intro tooLarge
        rw [unloaded (.tooLarge found parsed tooLarge)]
        exact ⟨rfl, rfl⟩
      · intro fits session
        have loads : Loads files path image := .of_parse found parsed fits
        refine ⟨fun bound limited => run_ne_endless limited, ?_⟩
        rw [report_eq, loads.execute_eq]
        exact isOfRun_runReport path session
  · intro quiet
    subst quiet
    refine ⟨read_trace_cons rfl accepted, ?_⟩
    intro traced traced_accepted
    rw [invoke_of_accepted traced_accepted]
    refine ⟨?_, ?_⟩
    · intro unloadable
      obtain ⟨error, unloadable⟩ :=
        (loads_or_unloadable files path).resolve_left unloadable
      rw [unloaded unloadable, unloadable.execute_eq]
    · intro image loads session ends
      rw [report_eq, loads.execute_eq, loads.execute_eq]
      exact runReport_run_of_tracing image strict limit path ends

/-- The text of a program that prints a five and halts with its third step. -/
def printingListing : List UInt8 :=
  "10000010\n00000000\n00000101\n01000111\n00000000\n00000001\n".toList.flatMap
    String.utf8EncodeChar

/-- Nothing but a program at one path. -/
def printingFiles : FileSystem := fun path =>
  if path = "print.ls8" then .file printingListing else .missing

theorem command_runs_program_printing :
    (invoke printingFiles ["print.ls8", "--max-steps=5"]).exit.code = 0 ∧
      (invoke printingFiles ["print.ls8", "--max-steps=5"]).stdout = "5\n" ∧
      (invoke (fun _ => .missing) ["print.ls8", "--max-steps=5"]).stderr =
        "error opening file print.ls8\n" ∧
      invoke printingFiles ["--trace", "print.ls8", "--max-steps=5"] =
        (invoke printingFiles ["print.ls8", "--max-steps=5"]).withTrace
          ["00 | 82 00 05 | 00 00 00 00 00 00 00 F4",
            "03 | 47 00 01 | 05 00 00 00 00 00 00 F4",
            "05 | 01 00 00 | 05 00 00 00 00 00 00 F4"] := by
  have accepted :
      read ["print.ls8", "--max-steps=5"] =
        .ok (.execute ⟨"print.ls8", settings false false (some 5)⟩) := by
    decide +kernel
  have found : printingFiles "print.ls8" = .file printingListing := rfl
  have valid : printingListing.toByteArray.IsValidUTF8 := by decide +kernel
  have parsed :
      Program.parse printingListing =
        .ok [0x82, 0x00, 0x05, 0x47, 0x00, 0x01] := by
    decide +kernel
  have halted :
      (ready (settings false false (some 5))
        [0x82, 0x00, 0x05, 0x47, 0x00, 0x01]).run.2 = .halted 3 := by
    decide +kernel
  have written :
      (ready (settings false false (some 5))
        [0x82, 0x00, 0x05, 0x47, 0x00, 0x01]).run.1.sink.written = "5\n" := by
    decide +kernel
  have recorded :
      (ready (settings false false (some 5))
        [0x82, 0x00, 0x05, 0x47, 0x00, 0x01]).traceLines 3 =
        ["00 | 82 00 05 | 00 00 00 00 00 00 00 F4",
          "03 | 47 00 01 | 05 00 00 00 00 00 00 F4",
          "05 | 01 00 00 | 05 00 00 00 00 00 00 F4"] := by
    decide +kernel
  obtain ⟨_, _, _, reports, traces⟩ := command_runs_program accepted printingFiles
  obtain ⟨_, absent, _⟩ := command_runs_program accepted fun _ => .missing
  obtain ⟨image, image_eq, _, runs⟩ := (reports printingListing found).2 valid
  rw [parsed] at image_eq
  obtain rfl := Except.ok.inj image_eq
  obtain ⟨bounded, ofRun⟩ := runs (by simp)
  obtain ⟨asking, traced⟩ := traces rfl
  obtain ⟨count, length, traced_eq⟩ :=
    (traced _ asking).2 _ (.of_parse found parsed (by simp [Memory.size]))
      (bounded 5 rfl)
  rw [halted] at length
  cases length
  rw [recorded] at traced_eq
  exact ⟨ofRun.code_eq_zero_iff.mpr ⟨3, halted⟩, ofRun.stdout_eq.trans written,
    (absent rfl).2, traced_eq⟩

end CommandLine
end LS8
