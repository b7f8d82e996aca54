import ScriptLoader.Proofs.Pipeline.ReportedFormat

/-!
The progress that a compilation tells of. Each stage is told in a block: that it begins, and how it ended. The
blocks follow one another in the order of the stages, and one that ends with an error is the last. So the last
event says what came of the compilation.
-/

set_option autoImplicit false
namespace ScriptLoader

open Project

namespace Pipeline

def progressOf (trace : List Happening) : List ProgressEvent :=
  trace.filterMap fun
    | .progress event => some event
    | _ => none

section
variable (rest : List Happening)

@[simp] theorem progressOf_nil : progressOf [] = [] := rfl

@[simp] theorem progressOf_progress (event : ProgressEvent) :
    progressOf (.progress event :: rest) = event :: progressOf rest := rfl

@[simp] theorem progressOf_log (entry : LogEntry) : progressOf (.log entry :: rest) = progressOf rest := rfl

@[simp] theorem progressOf_askedProgram (request : ProgramRequest) :
    progressOf (.askedProgram request :: rest) = progressOf rest := rfl

@[simp] theorem progressOf_askedBuild (config : Config) :
    progressOf (.askedBuild config :: rest) = progressOf rest := rfl

@[simp] theorem progressOf_transformed (request : TransformRequest) :
    progressOf (.transformed request :: rest) = progressOf rest := rfl

@[simp] theorem progressOf_built (request : BuildRequest) : progressOf (.built request :: rest) = progressOf rest := rfl

end

@[simp] theorem progressOf_append (before after : List Happening) :
    progressOf (before ++ after) = progressOf before ++ progressOf after := List.filterMap_append

@[simp] theorem progressOf_logs (logs : List LogEntry) : progressOf (logs.map .log) = [] := by
  induction logs with
  | nil => rfl
  | cons entry rest ih => rw [List.map_cons, progressOf_log, ih]

@[simp] theorem progressOf_framed (file : String) (label : Stage) (work : List Happening) :
    progressOf (framed file label work) =
      ⟨file, label, .working, none⟩ :: progressOf work ++ [⟨file, label, .done, none⟩] := by
  simp [framed]

def endStatus : Option Failure → Status
  | none => .done
  | some _ => .error

def block (file : String) (label : Stage) (failure : Option Failure) : List ProgressEvent :=
  [⟨file, label, .working, none⟩, ⟨file, label, endStatus failure, failure⟩]

def doneBlocks (file : String) (stages : List Stage) : List ProgressEvent :=
  stages.flatMap fun label => block file label none

theorem doneBlocks_append (file : String) (before after : List Stage) :
    doneBlocks file (before ++ after) = doneBlocks file before ++ doneBlocks file after := List.flatMap_append

theorem status_of_mem_doneBlocks {file : String} {stages : List Stage} {event : ProgressEvent}
    (mem : event ∈ doneBlocks file stages) : event.status ≠ .error := by
  obtain ⟨label, -, mem⟩ := List.mem_flatMap.mp mem
  simp only [block, endStatus, List.mem_cons, List.not_mem_nil, or_false] at mem
  rcases mem with rfl | rfl <;> nofun

end Pipeline

open Pipeline (progressOf)

/-- Engines leave it to the pipeline to tell of progress. -/
structure Engine.Quiet (engine : Engine) : Prop where
  making : ∀ setting request, progressOf (engine.newProgram setting request).trace = []
  emitting : ∀ setting request program receiver source, (engine.newProgram setting request).value = .ok program →
    progressOf (program.emit receiver source).trace = []
  building : ∀ setting config, progressOf (engine.buildProject setting config).trace = []

/-- The engine may fail, but it does not break down. -/
structure Engine.Steady (engine : Engine) : Prop where
  making : ∀ setting request message, (engine.newProgram setting request).value ≠ .error (.crashed message)
  emitting : ∀ setting request program receiver source message,
    (engine.newProgram setting request).value = .ok program →
    (program.emit receiver source).value.failure ≠ some (.crashed message)

namespace Pipeline
variable {α β : Type} {file : String} {stages before after : List Stage}

/-- A run through stages, as far as it is told: all of them went well, or one failed and is the last that is told of. -/
structure Passes (file : String) (stages : List Stage) (run : Traced (Except CompileError α)) : Prop where
  done : ∀ value, run.value = .ok value → progressOf run.trace = doneBlocks file stages
  failed : ∀ e, run.value = .error e → e.file = file ∧ ∃ passed left, stages = passed ++ e.stage :: left ∧
    progressOf run.trace = doneBlocks file passed ++ block file e.stage (some e.cause)

theorem passes_tryStage (file : String) (label : Stage) {work : Traced (Except Failure α)}
    (quiet : progressOf work.trace = []) (steady : ∀ message, work.value ≠ .error (.crashed message)) :
    Passes file [label] (tryStage file label work) := by
  constructor
  · intro value done
    rw [trace_tryStage (tryStage_eq_ok done), progressOf_framed, quiet]
    rfl
  · intro e failed
    rw [value_tryStage] at failed
    rcases result : work.value with failure | value
    · rw [result, mapError_error, Except.error.injEq] at failed
      subst failed
      refine ⟨rfl, [], [], rfl, ?_⟩
      cases failure with
      | crashed message => exact absurd result (steady message)
      | cancelled | engine | problem => simp [tryStage, notify, result, quiet, doneBlocks, block, endStatus]
    · rw [result, mapError_ok] at failed
      cases failed

/-- A run that goes on where another one went well, and ends with the error of one that failed. -/
theorem Passes.bind {run : Traced (Except CompileError α)}
    {next : Except CompileError α → Traced (Except CompileError β)}
    (first : Passes file before run) (stops : ∀ e, next (.error e) = pure (.error e))
    (later : ∀ value, run.value = .ok value → Passes file after (next (.ok value))) :
    Passes file (before ++ after) (run >>= next) := by
  rcases result : run.value with e | value
  · obtain ⟨same_file, passed, left, whole, told⟩ := first.failed e result
    have stopped : next run.value = pure (.error e) := by rw [result, stops]
    constructor
    · intro value done
      rw [Run.value_bind, stopped] at done
      cases done
    · intro e' failed
      rw [Run.value_bind, stopped, Run.value_pure, Except.error.injEq] at failed
      subst failed
      refine ⟨same_file, passed, left ++ after, by rw [whole, List.append_assoc, List.cons_append], ?_⟩
      rw [Run.trace_bind, stopped, Run.trace_pure, List.append_nil, told]
  · have told := first.done value result
    obtain ⟨done, failed⟩ := later value result
    rw [← result] at done failed
    constructor
    · intro value' finished
      rw [Run.trace_bind, progressOf_append, told, done value' finished, doneBlocks_append]
    · intro e stopped
      obtain ⟨same_file, passed, left, whole, ended⟩ := failed e stopped
      refine ⟨same_file, before ++ passed, left, by rw [whole, List.append_assoc], ?_⟩
      rw [Run.trace_bind, progressOf_append, told, ended, doneBlocks_append, List.append_assoc]

theorem Passes.after_quiet {run : Traced β} {next : β → Traced (Except CompileError α)}
    (quiet : progressOf run.trace = []) (later : Passes file stages (next run.value)) :
    Passes file stages (run >>= next) := by
  have same : progressOf (run >>= next).trace = progressOf (next run.value).trace := by simp [quiet]
  exact ⟨fun value done => same ▸ later.done value done, fun e failed => same ▸ later.failed e failed⟩

theorem passes_pure (file : String) (value : α) : Passes file [] (pure (.ok value)) :=
  ⟨fun _ _ => rfl, fun _ failed => by cases failed⟩

section
variable {engine : Engine} (quiet : engine.Quiet)
include quiet

theorem progressOf_buildTrace (setting : Setting) (config : Config) :
    progressOf (buildTrace engine setting config) = [] := by
  simp [buildTrace, quiet.building]

theorem progressOf_buildBatches (setting : Setting) (root : String) (batches : List (List Config)) :
    progressOf (buildBatches engine setting root batches).trace = [] := by
  have batch_quiet : ∀ configs, progressOf (buildBatch engine setting root configs).trace = [] := by
    intro configs
    rw [trace_buildBatch]
    induction configs with
    | nil => rfl
    | cons config rest ih => rw [List.flatMap_cons, progressOf_append, progressOf_buildTrace quiet, ih]; rfl
  induction batches with
  | nil => rfl
  | cons batch rest ih =>
    rw [buildBatches, Run.trace_bind, progressOf_append, batch_quiet, List.nil_append]
    split
    · rfl
    · rw [Run.trace_bind, progressOf_append, ih, List.nil_append]
      split <;> rfl

theorem progressOf_buildReferences (setting : Setting) (root : Config) :
    progressOf (buildReferences engine setting root).trace = [] := by
  obtain ⟨logs, discovered⟩ := discover_logs setting.fs FileSystem.pathBound [(root.path, some root)] [root]
  rw [buildReferences, Run.trace_bind, progressOf_append, discovered, progressOf_logs, List.nil_append]
  dsimp only
  rw [Run.trace_bind, progressOf_append, progressOf_buildBatches quiet, List.nil_append]
  split <;> rfl

end

/-- Reference builds are called off or end; they do not break down. -/
theorem buildBatches_eq_error {engine : Engine} {setting : Setting} {root : String} {batches : List (List Config)}
    {failure : Failure} (failed : (buildBatches engine setting root batches).value = .error failure) :
    failure = .cancelled := by
  induction batches with
  | nil => cases failed
  | cons batch rest ih =>
    rw [buildBatches, Run.value_bind] at failed
    split at failed
    · cases failed
      rfl
    · rw [Run.value_bind] at failed
      split at failed
      · rename_i e later
        cases failed
        exact ih later
      · cases failed

theorem buildReferences_ne_crashed (engine : Engine) (setting : Setting) (root : Config) (message : String) :
    (buildReferences engine setting root).value ≠ .error (.crashed message) := by
  intro crashed
  rw [buildReferences, Run.value_bind] at crashed
  dsimp only at crashed
  rw [Run.value_bind] at crashed
  split at crashed
  · rename_i e failed
    cases crashed
    cases buildBatches_eq_error failed
  · cases crashed

/-- Whether a file is governed by a configuration that refers to others. -/
def Governing.refers (governing : Governing) : Bool :=
  match governing.config with
  | none => false
  | some config => !config.references.isEmpty

/-- The stages that follow the first, in their order. -/
def laterStages (governing : Governing) : List Stage :=
  (if governing.refers then [.references] else []) ++ ([.program] ++ ([.emit] ++ [.diagnose]))

section
variable {p : Pipeline} (quiet : p.engine.Quiet) (steady : p.engine.Steady)
include quiet

theorem passes_referencesStage (setting : Setting) (file : String) (governing : Governing) :
    Passes file (if governing.refers then [.references] else []) (p.referencesStage setting file governing) := by
  unfold referencesStage Governing.refers
  cases governing.config with
  | none => exact passes_pure file noReferences
  | some config =>
    by_cases empty : config.references.isEmpty = true
    · simp only [empty, if_true, Bool.not_true, Bool.false_eq_true, if_false]
      exact passes_pure file noReferences
    · simp only [empty, Bool.false_eq_true, if_false, Bool.not_false, if_true]
      exact passes_tryStage file .references (progressOf_buildReferences quiet setting config)
        (buildReferences_ne_crashed p.engine setting config)

include steady

theorem passes_programStage (setting : Setting) (file : String) (governing : Governing) (graph : List Diagnostic) :
    Passes file [.program] (p.programStage setting file governing graph) := by
  apply passes_tryStage
  · simp [quiet.making]
  · intro message crashed
    have made := steady.making setting (programRequest file governing graph)
    simp only [Run.value_bind, Run.value_pure] at crashed
    rcases result : (p.engine.newProgram setting (programRequest file governing graph)).value with e | program
    · rw [result, mapError_error] at crashed
      cases e with
      | crashed told => exact made told result
      | cancelled | refused | failed => cases crashed
    · rw [result, mapError_ok] at crashed
      cases crashed

theorem passes_emitStage {setting : Setting} {file : String} {governing : Governing} {request : ProgramRequest}
    {program : Program} (made : (p.engine.newProgram setting request).value = .ok program) :
    Passes file [.emit] (emitStage file governing program) := by
  have told := quiet.emitting setting request program receiver (program.sourceFile file) made
  have ends := fun message => steady.emitting setting request program receiver (program.sourceFile file) message made
  apply passes_tryStage
  · rw [Run.trace_bind, progressOf_append, told, List.nil_append]
    split <;> rfl
  · intro message crashed
    rw [Run.value_bind] at crashed
    split at crashed
    · cases crashed
    · rename_i e failed
      cases e with
      | crashed told => exact ends told failed
      | cancelled | refused | failed => cases crashed

end

theorem conclude_ne_crashed (file : String) (governing : Governing) (hint : Option ModuleFormat)
    (diagnostics : List Diagnostic) (offered : List Artifact) (message : String) :
    conclude file governing hint diagnostics offered ≠ .error (.crashed message) := by
  unfold conclude
  split
  · nofun
  · split <;> nofun

/-- Once the configuration is found, what is told of a compilation runs through the stages that follow. -/
theorem exists_later_passes {p : Pipeline} (quiet : p.engine.Quiet) (steady : p.engine.Steady) (setting : Setting)
    (file : String) (hint : Option ModuleFormat) :
    ∃ later : Traced (Except CompileError CompileOutput),
      (p.compile setting file hint).value = later.value ∧
      progressOf (p.compile setting file hint).trace =
        block (setting.fs.abs file) .config none ++ progressOf later.trace ∧
      Passes (setting.fs.abs file) (laterStages (p.governing setting.fs file)) later := by
  have looked_up : progressOf (p.lookup setting.fs (setting.fs.abs file) p.options.checkEnabled).trace = [] := by
    simp [lookup]
  unfold compile
  rw [Run.value_bind, Run.trace_bind, progressOf_append, trace_stage, progressOf_framed, looked_up,
    value_stage, ← governing]
  generalize p.governing setting.fs file = governing
  refine ⟨_, rfl, rfl, Passes.after_quiet rfl ?_⟩
  unfold laterStages
  refine (passes_referencesStage quiet setting _ governing).bind (fun _ => rfl) fun references _ => ?_
  refine (passes_programStage quiet steady setting _ _ _).bind (fun _ => rfl) fun program made => ?_
  refine (passes_emitStage quiet steady (programStage_eq_ok.mp made)).bind (fun _ => rfl) fun emission _ => ?_
  exact passes_tryStage _ _ rfl (conclude_ne_crashed _ _ _ _ _)

theorem refers_iff (governing : Governing) :
    governing.refers = true ↔ ∃ config, governing.config = some config ∧ config.references ≠ [] := by
  unfold Governing.refers
  cases governing.config <;> simp

theorem config_cons_laterStages (governing : Governing) :
    .config :: laterStages governing =
      Stage.compile.filter fun label => label ≠ .references || governing.refers := by
  unfold laterStages
  cases governing.refers <;> rfl

/-- Where references are built at all, this comes first. -/
theorem mem_references_iff {governing : Governing} {part : List Stage} (some_stage : part ≠ [])
    (begins : part <+: laterStages governing) : .references ∈ part ↔ governing.refers = true := by
  unfold laterStages at begins
  cases refers : governing.refers with
  | true =>
    obtain ⟨first, rest, rfl⟩ := List.exists_cons_of_ne_nil some_stage
    simp only [refers, if_true, List.cons_append, List.nil_append, List.cons_prefix_cons] at begins
    simp [begins.1]
  | false =>
    refine iff_of_false (fun mem => ?_) Bool.false_ne_true
    have listed := begins.subset mem
    rw [refers] at listed
    revert listed
    decide

theorem getLast?_blocks (file : String) (passed : List Stage) (last : Stage) (failure : Option Failure) :
    (doneBlocks file passed ++ block file last failure).getLast? = some ⟨file, last, endStatus failure, failure⟩ := by
  simp [block]

theorem status_of_mem_dropLast {passed : List Stage} {last : Stage} {failure : Option Failure} {event : ProgressEvent}
    (mem : event ∈ (doneBlocks file passed ++ block file last failure).dropLast) : event.status ≠ .error := by
  have all_but_last : (doneBlocks file passed ++ block file last failure).dropLast =
      doneBlocks file passed ++ [⟨file, last, .working, none⟩] := by
    rw [List.dropLast_append_of_ne_nil (by simp [block])]
    rfl
  rw [all_but_last] at mem
  rcases List.mem_append.mp mem with done | working
  · exact status_of_mem_doneBlocks done
  · rw [List.mem_singleton.mp working]
    nofun

/-- The result of a run that ended with a stage, which failed or did not. -/
inductive EndsWith (path : String) : Stage → Option Failure → Except CompileError CompileOutput → Prop where
  | failed (label : Stage) (cause : Failure) : EndsWith path label (some cause) (.error ⟨label, path, cause⟩)
  | done (output : CompileOutput) : EndsWith path .diagnose none (.ok output)

section
variable {path : String} {last : Stage} {failure : Option Failure} {result : Except CompileError CompileOutput}

theorem EndsWith.eq_error_iff (ended : EndsWith path last failure result) (e : CompileError) :
    result = .error e ↔
      (⟨path, last, endStatus failure, failure⟩ : ProgressEvent) = ⟨e.file, e.stage, .error, some e.cause⟩ := by
  cases ended with
  | failed label cause =>
    cases e
    simp [endStatus, and_left_comm]
  | done output => simp [endStatus]

theorem EndsWith.eq_ok_iff (ended : EndsWith path last failure result) :
    (∃ output, result = .ok output) ↔
      (⟨path, last, endStatus failure, failure⟩ : ProgressEvent) = ⟨path, .diagnose, .done, none⟩ := by
  cases ended <;> simp [endStatus]

end

theorem exists_blocks {p : Pipeline} (quiet : p.engine.Quiet) (steady : p.engine.Steady)
    (setting : Setting) (file : String) (hint : Option ModuleFormat) :
    ∃ passed last failure,
      progressOf (p.compile setting file hint).trace =
        doneBlocks (setting.fs.abs file) (.config :: passed) ++ block (setting.fs.abs file) last failure ∧
      passed ++ [last] <+: laterStages (p.governing setting.fs file) ∧
      EndsWith (setting.fs.abs file) last failure (p.compile setting file hint).value := by
  obtain ⟨later, value, told, passes⟩ := exists_later_passes quiet steady setting file hint
  rw [value, told]
  generalize setting.fs.abs file = path at *
  generalize p.governing setting.fs file = governing at *
  rcases ended : later.value with e | output
  · obtain ⟨rfl, passed, left, stages, whole⟩ := passes.failed e ended
    refine ⟨passed, e.stage, some e.cause, ?_, ⟨left, by simp [stages]⟩, .failed e.stage e.cause⟩
    rw [whole, ← List.append_assoc]
    rfl
  · have stages : laterStages governing = (laterStages governing).dropLast ++ [.diagnose] := by
      unfold laterStages
      cases governing.refers <;> rfl
    refine ⟨(laterStages governing).dropLast, .diagnose, none, ?_, stages ▸ List.prefix_rfl, .done output⟩
    rw [passes.done output ended, stages, doneBlocks_append, List.dropLast_concat, ← List.append_assoc]
    rfl

/-- What is told of a compilation, whatever becomes of it: blocks of stages, in their order and without a gap,
of which only the last may end with an error. The last event is an error with the cause exactly when the
compilation fails so, and the end of the last stage exactly when it succeeds. -/
theorem compile_progress_in_blocks (p : Pipeline) (quiet : p.engine.Quiet) (steady : p.engine.Steady)
    (setting : Setting) (file : String) (hint : Option ModuleFormat) :
    let path := setting.fs.abs file
    let governing := p.governing setting.fs file
    let result := (p.compile setting file hint).value
    let events := progressOf (p.compile setting file hint).trace
    (∃ passed last failure,
      events = (passed.flatMap fun label => block path label none) ++ block path last failure ∧
      passed ++ [last] <+: (Stage.compile.filter fun label => label ≠ .references || governing.refers) ∧
      (.references ∈ passed ++ [last] ↔ ∃ config, governing.config = some config ∧ config.references ≠ [])) ∧
    (∀ event ∈ events.dropLast, event.status ≠ .error) ∧
    (∀ e, result = .error e ↔ events.getLast? = some ⟨e.file, e.stage, .error, some e.cause⟩) ∧
    ((∃ output, result = .ok output) ↔ events.getLast? = some ⟨path, .diagnose, .done, none⟩) := by
  intro path governing result events
  obtain ⟨passed, last, failure, told, begins, ended⟩ := exists_blocks quiet steady setting file hint
  change events = doneBlocks path (.config :: passed) ++ block path last failure at told
  change EndsWith path last failure result at ended
  have at_end : events.getLast? = some ⟨path, last, endStatus failure, failure⟩ := by rw [told, getLast?_blocks]
  refine ⟨⟨.config :: passed, last, failure, told, ?_, ?_⟩, ?_, ?_, ?_⟩
  · rw [← config_cons_laterStages]
    exact List.cons_prefix_cons.mpr ⟨rfl, begins⟩
  · rw [← refers_iff, ← mem_references_iff (by simp) begins]
    simp
  · intro event mem
    rw [told] at mem
    exact status_of_mem_dropLast mem
  · intro e
    rw [at_end, Option.some.injEq]
    exact ended.eq_error_iff e
  · rw [at_end, Option.some.injEq]
    exact ended.eq_ok_iff

end Pipeline

namespace Bundler

theorem progressOf_emit (bundler : Bundler) (setting : Setting) (o : CompilerOptions) (receiver : Option Receiver)
    (source : Option SourceFile) : progressOf (bundler.emit setting o receiver source).trace = [] := by
  unfold emit
  split
  · rfl
  · split
    · rfl
    · split
      · rfl
      · dsimp only
        rw [Run.trace_bind]
        split <;> simp

theorem progressOf_buildProject (bundler : Bundler) (setting : Setting) (config : Config) :
    progressOf (bundler.buildProject setting config).trace = [] := by
  unfold buildProject
  split
  · rfl
  · split
    · rfl
    · dsimp only
      rw [Run.trace_bind]
      split <;> simp

theorem emit_of_newProgram {bundler : Bundler} {setting : Setting} {request : ProgramRequest} {program : Program}
    (made : (bundler.engine.newProgram setting request).value = .ok program) :
    ∃ o, ∀ receiver, program.emit receiver = bundler.emit setting o (some receiver) := by
  simp only [engine, newProgram] at made
  split at made
  · cases made
  · split at made
    · cases made
    · cases made
      exact ⟨_, fun _ => rfl⟩

theorem quiet (bundler : Bundler) : bundler.engine.Quiet where
  making setting request := by rw [bundler.trace_newProgram, Pipeline.progressOf_nil]
  emitting setting request program receiver source made := by
    obtain ⟨o, emit⟩ := emit_of_newProgram made
    rw [emit, bundler.progressOf_emit]
  building setting config := bundler.progressOf_buildProject setting config

theorem failure_emit_ne_crashed (bundler : Bundler) (setting : Setting) (o : CompilerOptions)
    (receiver : Option Receiver) (source : Option SourceFile) (message : String) :
    (bundler.emit setting o receiver source).value.failure ≠ some (.crashed message) := by
  unfold emit
  split
  · nofun
  · split
    · nofun
    · split
      · nofun
      · dsimp only
        rw [Run.value_bind]
        split
        · cases receiver with
          | none => nofun
          | some receiver =>
            simp only [Run.value_pure, offer]
            split <;> nofun
        · nofun

theorem steady (bundler : Bundler) : bundler.engine.Steady where
  making setting request message := by
    simp only [engine, newProgram]
    intro crashed
    split at crashed
    · cases crashed
    · split at crashed <;> cases crashed
  emitting setting request program receiver source message made := by
    obtain ⟨o, emit⟩ := emit_of_newProgram made
    rw [emit]
    exact bundler.failure_emit_ne_crashed setting o _ source message

end Bundler

namespace Pipeline

/-- A compilation that is called off fails while references are built, and this is the last that is told of it. -/
theorem compile_chainOfProjects_calledOff :
    let p : Pipeline := ⟨Bundler.echo.engine, {}⟩
    let setting : Setting := ⟨chainOfProjects, true⟩
    let events := progressOf (p.compile setting "/p/a.ts" none).trace
    (p.compile setting "/p/a.ts" none).value = .error ⟨.references, "/p/a.ts", .cancelled⟩ ∧
      events.getLast? = some ⟨"/p/a.ts", .references, .error, some .cancelled⟩ ∧
      ∀ event ∈ events.dropLast, event.status ≠ .error := by
  intro p setting events
  have failed : (p.compile setting "/p/a.ts" none).value = .error ⟨.references, "/p/a.ts", .cancelled⟩ := by
    decide +kernel
  obtain ⟨-, no_error, failed_iff, -⟩ :=
    compile_progress_in_blocks p Bundler.echo.quiet Bundler.echo.steady setting "/p/a.ts" none
  exact ⟨failed, (failed_iff _).mp failed, no_error⟩

end Pipeline
end ScriptLoader
