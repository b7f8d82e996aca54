import ScriptLoader.Pipeline.Compile

/-! What a compilation comes to and what it leaves in the trace, stage by stage. -/

set_option autoImplicit false
namespace ScriptLoader

namespace Run
variable {τ σ α : Type}

@[simp] theorem value_mark (happening : τ) : (mark happening).value = () := rfl

@[simp] theorem trace_mark (happening : τ) : (mark happening).trace = [happening] := rfl

@[simp] theorem trace_marks (happenings : List τ) : (marks happenings).trace = happenings := rfl

@[simp] theorem value_relabel (label : τ → σ) (run : Run τ α) : (run.relabel label).value = run.value := rfl

@[simp] theorem trace_relabel (label : τ → σ) (run : Run τ α) :
    (run.relabel label).trace = run.trace.map label := rfl

end Run

namespace Pipeline
variable {α : Type}

def governing (p : Pipeline) (fs : FileSystem) (file : String) : Governing :=
  (p.lookup fs (fs.abs file) p.options.checkEnabled).value

@[simp] theorem value_stage (file : String) (label : Stage) (work : Traced α) :
    (stage file label work).value = work.value := rfl

theorem mapError_error {ε ε' : Type} (f : ε → ε') (e : ε) :
    (Except.error e : Except ε α).mapError f = .error (f e) := rfl

theorem mapError_ok {ε ε' : Type} (f : ε → ε') (value : α) :
    (Except.ok value : Except ε α).mapError f = .ok value := rfl

theorem value_tryStage (file : String) (label : Stage) (work : Traced (Except Failure α)) :
    (tryStage file label work).value = work.value.mapError (CompileError.mk label file) := by
  unfold tryStage
  rcases result : work.value with failure | value
  · cases failure <;> simp [result, mapError_error]
  · simp [result, mapError_ok]

theorem tryStage_eq_ok {file : String} {label : Stage} {work : Traced (Except Failure α)} {value : α}
    (done : (tryStage file label work).value = .ok value) : work.value = .ok value := by
  rw [value_tryStage] at done
  rcases result : work.value with failure | held
  · simp [result, mapError_error] at done
  · simpa [result, mapError_ok] using done

private theorem ok_bind {ε β : Type} (value : α) (next : α → Except ε β) :
    (Except.ok value >>= next) = next value := rfl

/-- Each stage gives its result to the next, and the first failure is the result of all. -/
theorem value_compile (p : Pipeline) (setting : Setting) (file : String) (hint : Option ModuleFormat) :
    (p.compile setting file hint).value = (do
      let path := setting.fs.abs file
      let governing := p.governing setting.fs file
      let references ← (p.referencesStage setting path governing).value
      let program ← (p.programStage setting path governing references.graph).value
      let emission ← (emitStage path governing program).value
      (conclude path governing hint (diagnosticsOf p.options.checkEnabled program path references.failed emission)
        emission.offered).mapError (CompileError.mk .diagnose path)) := by
  simp only [compile, Run.value_bind, value_stage, governing]
  generalize (p.lookup setting.fs (setting.fs.abs file) p.options.checkEnabled).value = governing
  cases (p.referencesStage setting (setting.fs.abs file) governing).value with
  | error e => rfl
  | ok references =>
    simp only [Run.value_bind, ok_bind]
    cases (p.programStage setting (setting.fs.abs file) governing references.graph).value with
    | error e => rfl
    | ok program =>
      simp only [Run.value_bind, ok_bind]
      cases (emitStage (setting.fs.abs file) governing program).value with
      | error e => rfl
      | ok emission => exact value_tryStage _ _ _

theorem programStage_eq_ok {p : Pipeline} {setting : Setting} {file : String} {governing : Governing}
    {graph : List Diagnostic} {program : Program} :
    (p.programStage setting file governing graph).value = .ok program ↔
      (p.engine.newProgram setting (programRequest file governing graph)).value = .ok program := by
  simp only [programStage, value_tryStage, Run.value_bind, Run.value_pure]
  cases (p.engine.newProgram setting (programRequest file governing graph)).value <;>
    simp [mapError_error, mapError_ok]

/-- The stage of emitting fails with what emitting fails with. -/
theorem value_emitStage (file : String) (governing : Governing) (program : Program) :
    (emitStage file governing program).value =
      match (program.emit receiver (program.sourceFile file)).value.failure with
      | none => .ok (program.emit receiver (program.sourceFile file)).value
      | some e => .error ⟨.emit, file, .ofEngine (refusal file governing) e⟩ := by
  simp only [emitStage, value_tryStage, Run.value_bind]
  cases (program.emit receiver (program.sourceFile file)).value.failure <;> rfl

theorem value_compile_of_unfailing {p : Pipeline} {setting : Setting} {file : String} (hint : Option ModuleFormat)
    {references : ReferenceBuilds} {program : Program}
    (referred : (p.referencesStage setting (setting.fs.abs file) (p.governing setting.fs file)).value = .ok references)
    (made : (p.engine.newProgram setting
      (programRequest (setting.fs.abs file) (p.governing setting.fs file) references.graph)).value = .ok program)
    (unfailing : (program.emit receiver (program.sourceFile (setting.fs.abs file))).value.failure = none) :
    (p.compile setting file hint).value =
      (conclude (setting.fs.abs file) (p.governing setting.fs file) hint
        (diagnosticsOf p.options.checkEnabled program (setting.fs.abs file) references.failed
          (program.emit receiver (program.sourceFile (setting.fs.abs file))).value)
        (program.emit receiver (program.sourceFile (setting.fs.abs file))).value.offered).mapError
          (CompileError.mk .diagnose (setting.fs.abs file)) := by
  rw [value_compile]
  simp only [referred, programStage_eq_ok.mpr made, value_emitStage, unfailing, ok_bind]

/-- What a successful compilation went through. -/
structure Completed (p : Pipeline) (setting : Setting) (file : String) (hint : Option ModuleFormat)
    (references : ReferenceBuilds) (program : Program) (emission : Emission) (output : CompileOutput) : Prop where
  referred : (p.referencesStage setting (setting.fs.abs file) (p.governing setting.fs file)).value = .ok references
  made : (p.engine.newProgram setting
    (programRequest (setting.fs.abs file) (p.governing setting.fs file) references.graph)).value = .ok program
  emitted : (program.emit receiver (program.sourceFile (setting.fs.abs file))).value = emission
  unfailing : emission.failure = none
  concluded : conclude (setting.fs.abs file) (p.governing setting.fs file) hint
    (diagnosticsOf p.options.checkEnabled program (setting.fs.abs file) references.failed emission)
    emission.offered = .ok output

theorem completed_of_compile {p : Pipeline} {setting : Setting} {file : String} {hint : Option ModuleFormat}
    {output : CompileOutput} (compiled : (p.compile setting file hint).value = .ok output) :
    ∃ references program emission, p.Completed setting file hint references program emission output := by
  rw [value_compile] at compiled
  simp only [value_emitStage] at compiled
  rcases referred : (p.referencesStage setting (setting.fs.abs file) (p.governing setting.fs file)).value
    with e | references
  · simp [referred, bind, Except.bind] at compiled
  rcases made : (p.programStage setting (setting.fs.abs file) (p.governing setting.fs file) references.graph).value
    with e | program
  · simp [referred, made, bind, Except.bind] at compiled
  simp only [referred, made, ok_bind] at compiled
  split at compiled
  · rename_i unfailing
    simp only [ok_bind] at compiled
    refine ⟨references, program, _, referred, programStage_eq_ok.mp made, rfl, unfailing, ?_⟩
    generalize conclude _ _ _ _ _ = concluded at compiled ⊢
    cases concluded <;> simp_all [mapError_error, mapError_ok]
  · simp [bind, Except.bind] at compiled

theorem Completed.value_compile {p : Pipeline} {setting : Setting} {file : String} {hint : Option ModuleFormat}
    {references : ReferenceBuilds} {program : Program} {emission : Emission} {output : CompileOutput}
    (completed : p.Completed setting file hint references program emission output) :
    (p.compile setting file hint).value = .ok output := by
  have unfailing := completed.unfailing
  rw [← completed.emitted] at unfailing
  rw [value_compile_of_unfailing hint completed.referred completed.made unfailing,
    completed.emitted, completed.concluded, mapError_ok]

/-- The trace of a stage that went well: its work between two marks. -/
def framed (file : String) (label : Stage) (work : List Happening) : List Happening :=
  .progress ⟨file, label, .working, none⟩ :: work ++ [.progress ⟨file, label, .done, none⟩]

theorem infix_framed (file : String) (label : Stage) (work : List Happening) : work <:+: framed file label work :=
  ⟨[_], [_], rfl⟩

theorem trace_stage (file : String) (label : Stage) (work : Traced α) :
    (stage file label work).trace = framed file label work.trace := by
  simp [stage, notify, framed]

theorem trace_tryStage {file : String} {label : Stage} {work : Traced (Except Failure α)} {value : α}
    (done : work.value = .ok value) : (tryStage file label work).trace = framed file label work.trace := by
  simp [tryStage, notify, framed, done]

def compilingLog (file : String) (governing : Governing) (check : Bool) : Happening :=
  .log (.debug "pipeline" "compiling"
    [("file", .text file), ("config", .text governing.configPath), ("check", .flag check)])

theorem trace_programStage {p : Pipeline} {setting : Setting} {file : String} {governing : Governing}
    {graph : List Diagnostic} {program : Program}
    (made : (p.engine.newProgram setting (programRequest file governing graph)).value = .ok program) :
    (p.programStage setting file governing graph).trace =
      framed file .program (.askedProgram (programRequest file governing graph) ::
        (p.engine.newProgram setting (programRequest file governing graph)).trace) := by
  rw [programStage, trace_tryStage (tryStage_eq_ok (programStage_eq_ok.mpr made))]
  simp

theorem trace_emitStage {file : String} (governing : Governing) {program : Program}
    (unfailing : (program.emit receiver (program.sourceFile file)).value.failure = none) :
    (emitStage file governing program).trace =
      framed file .emit (program.emit receiver (program.sourceFile file)).trace := by
  have emitted : (emitStage file governing program).value =
      .ok (program.emit receiver (program.sourceFile file)).value := by
    rw [value_emitStage, unfailing]
  rw [emitStage, trace_tryStage (tryStage_eq_ok emitted)]
  simp [unfailing]

theorem Completed.trace {p : Pipeline} {setting : Setting} {file : String} {hint : Option ModuleFormat}
    {references : ReferenceBuilds} {program : Program} {emission : Emission} {output : CompileOutput}
    (completed : p.Completed setting file hint references program emission output) :
    (p.compile setting file hint).trace =
      framed (setting.fs.abs file) .config
        (p.lookup setting.fs (setting.fs.abs file) p.options.checkEnabled).trace ++
      compilingLog (setting.fs.abs file) (p.governing setting.fs file) p.options.checkEnabled ::
      ((p.referencesStage setting (setting.fs.abs file) (p.governing setting.fs file)).trace ++
      (framed (setting.fs.abs file) .program
        (.askedProgram (programRequest (setting.fs.abs file) (p.governing setting.fs file) references.graph) ::
          (p.engine.newProgram setting
            (programRequest (setting.fs.abs file) (p.governing setting.fs file) references.graph)).trace) ++
      (framed (setting.fs.abs file) .emit
        (program.emit receiver (program.sourceFile (setting.fs.abs file))).trace ++
      framed (setting.fs.abs file) .diagnose []))) := by
  have unfailing := completed.unfailing
  rw [← completed.emitted] at unfailing
  have emitted : (emitStage (setting.fs.abs file) (p.governing setting.fs file) program).value = .ok emission := by
    rw [value_emitStage, completed.emitted, completed.unfailing]
  have referred := completed.referred
  have made := programStage_eq_ok.mpr completed.made
  rw [← trace_programStage completed.made, ← trace_emitStage (p.governing setting.fs file) unfailing]
  have diagnosed : (tryStage (setting.fs.abs file) .diagnose (pure (conclude (setting.fs.abs file)
      (p.governing setting.fs file) hint
      (diagnosticsOf p.options.checkEnabled program (setting.fs.abs file) references.failed emission)
      emission.offered))).trace = framed (setting.fs.abs file) .diagnose [] := trace_tryStage completed.concluded
  simp only [governing] at referred made emitted diagnosed ⊢
  simp only [compile, Run.trace_bind, value_stage, trace_stage, Run.trace_mark, referred, made, emitted, diagnosed,
    compilingLog, List.singleton_append]

theorem Completed.infix_trace {p : Pipeline} {setting : Setting} {file : String} {hint : Option ModuleFormat}
    {references : ReferenceBuilds} {program : Program} {emission : Emission} {output : CompileOutput}
    (completed : p.Completed setting file hint references program emission output) :
    (p.referencesStage setting (setting.fs.abs file) (p.governing setting.fs file)).trace <:+:
      (p.compile setting file hint).trace := by
  rw [completed.trace]
  exact (List.prefix_append _ _).isInfix.trans ((List.suffix_cons _ _).trans (List.suffix_append _ _)).isInfix

end Pipeline
end ScriptLoader
