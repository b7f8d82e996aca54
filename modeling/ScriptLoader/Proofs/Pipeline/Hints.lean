import ScriptLoader.Proofs.Pipeline.Outcome
import ScriptLoader.Proofs.Pipeline.Unchecked

/-!
Two compilations of a file that differ in the format the host asks for. They go the same way to their end, and
only there the hint stands in for a format that the options leave open.
-/

set_option autoImplicit false
namespace ScriptLoader

/-- An error on one side is the same error on the other. -/
def FailsAlike {ε α : Type} (left right : Except ε α) : Prop := ∀ e, left = .error e ↔ right = .error e

namespace FailsAlike
variable {ε α : Type}

theorem refl (result : Except ε α) : FailsAlike result result := fun _ => Iff.rfl

theorem of_ok (left right : α) : FailsAlike (.ok left : Except ε α) (.ok right) :=
  fun _ => iff_of_false nofun nofun

theorem cases {left right : Except ε α} (alike : FailsAlike left right) :
    (∃ e, left = .error e ∧ right = .error e) ∨ ∃ value value', left = .ok value ∧ right = .ok value' := by
  cases left with
  | error e => exact .inl ⟨e, rfl, (alike e).mp rfl⟩
  | ok value =>
    cases right with
    | error e => exact .inl ⟨e, (alike e).mpr rfl, rfl⟩
    | ok value' => exact .inr ⟨value, value', rfl, rfl⟩

end FailsAlike

namespace Run
variable {τ ε α β : Type}

/-- Two runs that leave the same trace and fail alike. -/
structure Alike (left right : Run τ (Except ε β)) : Prop where
  trace : left.trace = right.trace
  value : FailsAlike left.value right.value

theorem Alike.refl (run : Run τ (Except ε β)) : Alike run run := ⟨rfl, .refl _⟩

theorem Alike.bind {run : Run τ α} {next next' : α → Run τ (Except ε β)}
    (later : ∀ value, Alike (next value) (next' value)) : Alike (run >>= next) (run >>= next') := by
  obtain ⟨trace, value⟩ := later run.value
  exact ⟨by rw [trace_bind, trace_bind, trace], value⟩

end Run

namespace Pipeline

theorem tryStage_alike {α : Type} (file : String) (label : Stage) {left right : Except Failure α}
    (alike : FailsAlike left right) :
    Run.Alike (tryStage file label (pure left)) (tryStage file label (pure right)) := by
  rcases alike.cases with ⟨e, rfl, rfl⟩ | ⟨value, value', rfl, rfl⟩
  · exact .refl _
  · exact ⟨rfl, .of_ok value value'⟩

theorem conclude_alike (file : String) (governing : Governing) (hint hint' : Option ModuleFormat)
    (diagnostics : List Diagnostic) (offered : List Artifact) :
    FailsAlike (conclude file governing hint diagnostics offered)
      (conclude file governing hint' diagnostics offered) := by
  unfold conclude
  split
  · exact .refl _
  · cases captured offered with
    | none => exact .refl _
    | some artifact => exact .of_ok _ _

theorem compile_alike (p : Pipeline) (setting : Setting) (file : String) (hint hint' : Option ModuleFormat) :
    Run.Alike (p.compile setting file hint) (p.compile setting file hint') := by
  unfold compile
  -- Up to the last stage both runs are one and the same, so they part only where the result is concluded.
  apply Run.Alike.bind
  intro governing
  apply Run.Alike.bind
  intro _
  apply Run.Alike.bind
  intro referred
  cases referred with
  | error e => exact .refl _
  | ok references =>
    apply Run.Alike.bind
    intro made
    cases made with
    | error e => exact .refl _
    | ok program =>
      apply Run.Alike.bind
      intro emitted
      cases emitted with
      | error e => exact .refl _
      | ok emission => exact tryStage_alike _ _ (conclude_alike _ _ _ _ _ _)

theorem Completed.with_hint {p : Pipeline} {setting : Setting} {file : String} {hint : Option ModuleFormat}
    {references : ReferenceBuilds} {program : Program} {emission : Emission} {output : CompileOutput}
    (completed : p.Completed setting file hint references program emission output) (hint' : Option ModuleFormat) :
    ∃ artifact, captured emission.offered = some artifact ∧ output = ⟨artifact.data,
        artifactFormat (setting.fs.abs file) (p.governing setting.fs file).options hint artifact⟩ ∧
      p.Completed setting file hint' references program emission ⟨artifact.data,
        artifactFormat (setting.fs.abs file) (p.governing setting.fs file).options hint' artifact⟩ := by
  obtain ⟨clear, artifact, script, same⟩ := conclude_eq_ok.mp completed.concluded
  refine ⟨artifact, script, same, ?_⟩
  exact { completed with concluded := conclude_eq_ok.mpr ⟨clear, artifact, script, rfl⟩ }

/-- Whatever the host asks for, the engine is asked the same and answers the same, so that all marks agree,
those that an engine leaves of its own included. Both runs fail with one error, or both give the script that
was captured; its format is the host's choice only where the options leave it open. -/
theorem compile_hint_fills_gap (p : Pipeline) (setting : Setting) (file : String) (hint hint' : Option ModuleFormat) :
    let run := p.compile setting file hint
    let run' := p.compile setting file hint'
    run.trace = run'.trace ∧
    ((∃ e, run.value = .error e ∧ run'.value = .error e) ∨
      ∃ references program emission artifact output output',
        run.value = .ok output ∧ p.Completed setting file hint references program emission output ∧
        run'.value = .ok output' ∧ p.Completed setting file hint' references program emission output' ∧
        captured emission.offered = some artifact ∧ output.source = artifact.data ∧ output'.source = artifact.data ∧
        let source := decidingSource (setting.fs.abs file) artifact
        let decided := ModuleFormat.infer source.fileName source.implied (p.governing setting.fs file).options
        (∀ format, decided = some format → output.format = format ∧ output'.format = format) ∧
        (decided = none → output.format = hint.getD .commonJS ∧ output'.format = hint'.getD .commonJS)) := by
  intro run run'
  obtain ⟨trace, value⟩ := p.compile_alike setting file hint hint'
  refine ⟨trace, value.cases.imp_right ?_⟩
  rintro ⟨output, -, compiled, -⟩
  obtain ⟨references, program, emission, completed⟩ := completed_of_compile compiled
  obtain ⟨artifact, script, rfl, completed'⟩ := completed.with_hint hint'
  refine ⟨references, program, emission, artifact, _, _, compiled, completed,
    completed'.value_compile, completed', script, rfl, rfl, ?_, ?_⟩
  · intro format decided
    simp [artifactFormat, decided]
  · intro undecided
    simp [artifactFormat, undecided]

-- Without a configuration each file decides for itself, and the name of this one leaves it open.
example :
    let p : Pipeline := ⟨.offering [⟨"/a.js", "1", []⟩] [], {}⟩
    let setting : Setting := ⟨⟨.empty, "/h", rfl⟩, false⟩
    (p.compile setting "/a.ts" (some .module)).value = .ok ⟨"1", .module⟩ ∧
      (p.compile setting "/a.ts" none).value = .ok ⟨"1", .commonJS⟩ := ⟨rfl, rfl⟩

end Pipeline
end ScriptLoader
