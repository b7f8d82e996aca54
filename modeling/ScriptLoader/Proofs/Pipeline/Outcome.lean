import ScriptLoader.Proofs.Pipeline.Stages

/-!
What a compilation comes to. It is decided by the scripts among the artifacts that are offered, by the
failure of emitting and by the diagnostics, in this order.
-/

set_option autoImplicit false
namespace ScriptLoader

/-- The emission ends at the first artifact that is refused, and fails with the refusal. -/
def Emission.EndsAtRefusal (receiver : Receiver) (emission : Emission) : Prop :=
  ∀ before artifact after, emission.offered = before ++ artifact :: after → receiver before artifact = true →
    after = [] ∧ emission.failure = some .refused

/-- What engines owe to a receiver: each of their programs stops at the first artifact that is refused. -/
def Engine.EndsAtRefusal (engine : Engine) : Prop :=
  ∀ setting request program receiver source, (engine.newProgram setting request).value = .ok program →
    (program.emit receiver source).value.EndsAtRefusal receiver

namespace Receiver

theorem isPrefix_offerAll (receiver : Receiver) (before artifacts : List Artifact) :
    before <+: (receiver.offerAll before artifacts).1 := by
  induction artifacts generalizing before with
  | nil => exact List.prefix_refl before
  | cons next rest ih =>
    unfold offerAll
    split
    · exact List.prefix_append before [next]
    · exact (List.prefix_append before [next]).trans (ih _)

theorem offerAll_refused (receiver : Receiver) {before artifacts earlier after : List Artifact} {artifact : Artifact}
    (offered : (receiver.offerAll before artifacts).1 = earlier ++ artifact :: after)
    (long : before.length ≤ earlier.length) (refused : receiver earlier artifact = true) :
    after = [] ∧ (receiver.offerAll before artifacts).2 = true := by
  induction artifacts generalizing before with
  | nil =>
    have lengths := congrArg List.length offered
    simp only [offerAll, List.length_append, List.length_cons] at lengths
    omega
  | cons next rest ih =>
    unfold offerAll at offered ⊢
    split at offered
    · rename_i now
      have lengths := congrArg List.length offered
      simp only [List.length_append, List.length_cons, List.length_nil] at lengths
      exact ⟨List.eq_nil_of_length_eq_zero (by omega), by rw [if_pos now]⟩
    · rename_i later
      rw [if_neg later]
      have longer : before.length ≠ earlier.length := by
        -- Otherwise the receiver was asked about this very artifact, and took it.
        intro same
        obtain ⟨tail, whole⟩ := receiver.isPrefix_offerAll (before ++ [next]) rest
        rw [offered, List.append_assoc] at whole
        obtain ⟨same_before, same_rest⟩ := List.append_inj whole same
        obtain ⟨rfl, -⟩ := List.cons_eq_cons.mp same_rest
        rw [same_before] at later
        exact later refused
      apply ih offered
      simp only [List.length_append, List.length_cons, List.length_nil]
      omega

end Receiver

namespace Engine

/-- An engine whose programs offer the given artifacts and have the given diagnostics. -/
def offering (artifacts : List Artifact) (diagnostics : List Diagnostic) : Engine where
  newProgram _ _ := pure (.ok
    { sourceFile := fun name => some ⟨name, "", none⟩
      preEmit := fun _ => diagnostics
      emit := fun receiver _ => pure
        { offered := (receiver.offerAll [] artifacts).1
          diagnostics := diagnostics
          failure := if (receiver.offerAll [] artifacts).2 then some .refused else none } })
  resolveModule _ _ _ _ := pure none
  buildProject _ _ := pure (.ok ())

theorem offering_endsAtRefusal (artifacts : List Artifact) (diagnostics : List Diagnostic) :
    (offering artifacts diagnostics).EndsAtRefusal := by
  intro setting request program receiver source made before artifact after offered refused
  cases made
  obtain ⟨last, told⟩ := receiver.offerAll_refused offered (Nat.zero_le _) refused
  exact ⟨last, by simp [told]⟩

end Engine

namespace Pipeline

def scripts (artifacts : List Artifact) : List Artifact :=
  artifacts.filter fun artifact => SourceName.isScript artifact.name

theorem captured_eq_head? (offered : List Artifact) : captured offered = (scripts offered).head? := by
  rw [captured, scripts, List.head?_filter]

theorem refused_of_two_scripts {emission : Emission} (obedient : emission.EndsAtRefusal receiver)
    (two : 2 ≤ (scripts emission.offered).length) : emission.failure = some .refused := by
  obtain ⟨first, second, rest, found⟩ : ∃ first second rest, scripts emission.offered = first :: second :: rest := by
    match scripts emission.offered, two with
    | first :: second :: rest, _ => exact ⟨first, second, rest, rfl⟩
  obtain ⟨before, later, offered, -, first_script, found⟩ := List.filter_eq_cons_iff.mp found
  obtain ⟨between, after, later_eq, -, second_script, -⟩ := List.filter_eq_cons_iff.mp found
  have split : emission.offered = (before ++ first :: between) ++ second :: after := by
    simp [offered, later_eq]
  have refused : receiver (before ++ first :: between) second = true := by
    simp [receiver, first_script, second_script]
  exact (obedient _ _ _ split refused).2

/-- What a compilation comes to: two scripts outweigh any other failure to emit, a failure outweighs the diagnostics,
and these outweigh that there is no script. -/
def verdict (file : String) (governing : Governing) (hint : Option ModuleFormat) (scripts : List Artifact)
    (failure : Option EngineError) (diagnostics : List Diagnostic) : Except CompileError CompileOutput :=
  if 2 ≤ scripts.length then .error ⟨.emit, file, .problem (refusal file governing)⟩
  else match failure with
    | some e => .error ⟨.emit, file, .ofEngine (refusal file governing) e⟩
    | none =>
      if blocking diagnostics ≠ [] then
        .error ⟨.diagnose, file, .problem ⟨.compilation, file, governing.configPath, blocking diagnostics⟩⟩
      else match scripts.head? with
        | none => .error ⟨.diagnose, file, .problem ⟨.noOutput, file, governing.configPath, []⟩⟩
        | some script => .ok ⟨script.data, artifactFormat file governing.options hint script⟩

theorem compile_eq_verdict {p : Pipeline} {setting : Setting} {file : String} (hint : Option ModuleFormat)
    {references : ReferenceBuilds} {program : Program} (contract : p.engine.EndsAtRefusal)
    (referred : (p.referencesStage setting (setting.fs.abs file) (p.governing setting.fs file)).value = .ok references)
    (made : (p.engine.newProgram setting
      (programRequest (setting.fs.abs file) (p.governing setting.fs file) references.graph)).value = .ok program) :
    (p.compile setting file hint).value =
      verdict (setting.fs.abs file) (p.governing setting.fs file) hint
        (scripts (program.emit receiver (program.sourceFile (setting.fs.abs file))).value.offered)
        (program.emit receiver (program.sourceFile (setting.fs.abs file))).value.failure
        (diagnosticsOf p.options.checkEnabled program (setting.fs.abs file) references.failed
          (program.emit receiver (program.sourceFile (setting.fs.abs file))).value) := by
  have obedient := contract setting _ program receiver (program.sourceFile (setting.fs.abs file)) made
  rw [value_compile]
  unfold verdict
  simp only [referred, bind, Except.bind, programStage_eq_ok.mpr made, value_emitStage]
  generalize (program.emit receiver (program.sourceFile (setting.fs.abs file))).value = emission at obedient ⊢
  rcases failed : emission.failure with _ | e
  · have one : ¬2 ≤ (scripts emission.offered).length := by
      intro two
      rw [refused_of_two_scripts obedient two] at failed
      cases failed
    simp only [conclude, captured_eq_head?, if_neg one]
    split
    · rfl
    · cases (scripts emission.offered).head? <;> rfl
  · by_cases two : 2 ≤ (scripts emission.offered).length
    · rw [refused_of_two_scripts obedient two] at failed
      cases failed
      rw [if_pos two]
      rfl
    · rw [if_neg two]

theorem blocking_eq_filter (diagnostics : List Diagnostic) :
    blocking diagnostics = diagnostics.filter fun d => d.category = .error ∧ d.code ≠ ⟨5096⟩ := by
  rw [blocking, Diagnostic.errorsExcept]
  apply List.filter_congr
  intro d _
  simp only [Diagnostic.isError, Code.sourceExtensionsWithEmit, Bool.decide_and, decide_not, bne]
  rfl

/-- Which of five ends a compilation comes to, once the references are done with and there is a program. Artifacts that
are no scripts do not matter. -/
theorem compile_decided_by_scripts_failure_diagnostics (p : Pipeline) (setting : Setting) (file : String)
    (hint : Option ModuleFormat) (references : ReferenceBuilds) (program : Program)
    (contract : p.engine.EndsAtRefusal)
    (referred : (p.referencesStage setting (setting.fs.abs file) (p.governing setting.fs file)).value = .ok references)
    (made : (p.engine.newProgram setting
      (programRequest (setting.fs.abs file) (p.governing setting.fs file) references.graph)).value = .ok program) :
    let path := setting.fs.abs file
    let governing := p.governing setting.fs file
    let source := program.sourceFile path
    let emission := (program.emit receiver source).value
    let diagnostics := (if p.options.checkEnabled then program.preEmit source else []) ++ references.failed ++
      emission.diagnostics
    let errors := diagnostics.filter fun d => d.category = .error ∧ d.code ≠ ⟨5096⟩
    let result := (p.compile setting file hint).value
    (2 ≤ (scripts emission.offered).length →
      result = .error ⟨.emit, path, .problem ⟨.multipleOutputs, path, governing.configPath, []⟩⟩) ∧
    ((scripts emission.offered).length < 2 → ∀ e, emission.failure = some e →
      result = .error ⟨.emit, path, .ofEngine (refusal path governing) e⟩ ∧
      (e ≠ .refused → ∀ cwd, CompileError.message cwd ⟨.emit, path, .ofEngine (refusal path governing) e⟩ =
        "failed to emit " ++ path ++ ": " ++ e.message)) ∧
    ((scripts emission.offered).length < 2 → emission.failure = none → errors ≠ [] →
      result = .error ⟨.diagnose, path, .problem ⟨.compilation, path, governing.configPath, errors⟩⟩) ∧
    (scripts emission.offered = [] → emission.failure = none → errors = [] →
      result = .error ⟨.diagnose, path, .problem ⟨.noOutput, path, governing.configPath, []⟩⟩) ∧
    (∀ script, scripts emission.offered = [script] → emission.failure = none → errors = [] →
      result = .ok ⟨script.data, artifactFormat path governing.options hint script⟩) ∧
    (∀ (engine : Engine) (rival : Program), engine.EndsAtRefusal →
      (referencesStage ⟨engine, p.options⟩ setting path governing).value = .ok references →
      (engine.newProgram setting (programRequest path governing references.graph)).value = .ok rival →
      rival.sourceFile path = source → rival.preEmit source = program.preEmit source →
      scripts (rival.emit receiver source).value.offered = scripts emission.offered →
      (rival.emit receiver source).value.failure = emission.failure →
      (rival.emit receiver source).value.diagnostics = emission.diagnostics →
      (compile ⟨engine, p.options⟩ setting file hint).value = result) := by
  intro path governing source emission diagnostics errors result
  have all : diagnosticsOf p.options.checkEnabled program path references.failed emission = diagnostics := by
    simp only [diagnosticsOf, diagnostics, List.append_assoc, source]
  have same_verdict : result = verdict path governing hint (scripts emission.offered) emission.failure diagnostics := by
    rw [← all]
    exact compile_eq_verdict hint contract referred made
  have blocked : blocking diagnostics = errors := blocking_eq_filter diagnostics
  have decided := same_verdict
  unfold verdict at decided
  rw [blocked] at decided
  refine ⟨?_, ?_, ?_, ?_, ?_, ?_⟩
  · intro two
    rw [decided, if_pos two]
    rfl
  · intro few e failed
    constructor
    · rw [decided, if_neg (by omega), failed]
    · intro other cwd
      cases e with
      | refused => exact absurd rfl other
      | cancelled => rfl
      | failed message => rfl
      | crashed message => rfl
  · intro few unfailing some_error
    rw [decided, if_neg (by omega), unfailing]
    simp [some_error]
  · intro no_script unfailing no_error
    rw [decided, no_script, unfailing]
    simp [no_error]
  · intro script one unfailing no_error
    rw [decided, one, unfailing]
    simp [no_error]
  · intro engine rival rival_contract rival_referred rival_made same_source same_known same_scripts
      same_failure same_told
    have rival_all : diagnosticsOf p.options.checkEnabled rival path references.failed
        (rival.emit receiver source).value = diagnostics := by
      simp only [diagnosticsOf, same_source, same_known, same_told, diagnostics, List.append_assoc]
    have rival_decided := compile_eq_verdict hint rival_contract rival_referred rival_made
    change _ = verdict path governing hint (scripts (rival.emit receiver (rival.sourceFile path)).value.offered)
      (rival.emit receiver (rival.sourceFile path)).value.failure
      (diagnosticsOf p.options.checkEnabled rival path references.failed
        (rival.emit receiver (rival.sourceFile path)).value) at rival_decided
    rw [same_source, rival_all, same_scripts, same_failure] at rival_decided
    exact rival_decided.trans same_verdict.symm

end Pipeline

/-- A second script is refused, whatever stands between the two and whatever diagnostics there are. -/
theorem compile_second_script :
    (Pipeline.compile
      ⟨.offering [⟨"/a.js", "1", []⟩, ⟨"/a.d.ts", "", []⟩, ⟨"/a.mjs", "2", []⟩] [.ofError ⟨2322⟩ "wrong type"], {}⟩
      ⟨⟨.empty, "/", rfl⟩, false⟩ "/a.ts" none).value =
      .error ⟨.emit, "/a.ts", .problem ⟨.multipleOutputs, "/a.ts", "", []⟩⟩ :=
  (Pipeline.compile_decided_by_scripts_failure_diagnostics
    ⟨.offering [⟨"/a.js", "1", []⟩, ⟨"/a.d.ts", "", []⟩, ⟨"/a.mjs", "2", []⟩] [.ofError ⟨2322⟩ "wrong type"], {}⟩
    ⟨⟨.empty, "/", rfl⟩, false⟩ "/a.ts" none {} _ (Engine.offering_endsAtRefusal _ _) rfl rfl).1 (by decide)

end ScriptLoader
