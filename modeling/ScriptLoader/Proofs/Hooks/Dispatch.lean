import ScriptLoader.Hooks.Loader

/-!
How a chain answers. The hooks are asked in the reverse order of their registration, up to the first that does
not pass its request on, and the host is asked when all of them do. What comes out is the outcome of the last
that was asked, unless that is a hook which ended without a final result.
-/

set_option autoImplicit false
namespace ScriptLoader

/-- What comes of initializing a module that is to be registered: its hooks, or a refusal. -/
abbrev Registration := Traced (Except InitError Hooks)

/-- A hook that passes on gives back whatever comes back. -/
def Hook.GivesBack {ρ α : Type} (hook : Hook ρ α) : Prop :=
  ∀ setting request next after, (hook setting request).value = .pass next after → after = id

structure Hooks.GiveBack (hooks : Hooks) : Prop where
  resolve : hooks.resolve.GivesBack
  load : hooks.load.GivesBack

/-- Hooks that do nothing but pass on what they are asked, though they may leave marks. -/
structure Hooks.Idle (hooks : Hooks) : Prop where
  resolve : ∀ setting request, (hooks.resolve setting request).value = .pass request id
  load : ∀ setting request, (hooks.load setting request).value = .pass request id

namespace Chain

def after (chain : Chain) (registration : Registration) : Chain :=
  match (chain.enroll id registration).value with
  | .ok (longer, _) => longer
  | .error _ => chain

/-- The chain after registrations, made one after another. -/
def ofAll (registrations : List Registration) : Chain := registrations.foldl after {}

def enrolled (registrations : List Registration) : List Hooks := registrations.filterMap (·.value.toOption)

theorem hooks_after (chain : Chain) (registration : Registration) :
    (chain.after registration).hooks = registration.value.toOption.toList ++ chain.hooks := by
  rw [after, enroll, Run.value_bind]
  cases registration.value <;> rfl

theorem hooks_ofAll (registrations : List Registration) :
    (ofAll registrations).hooks = (enrolled registrations).reverse := by
  have grown : ∀ chain : Chain, (registrations.foldl after chain).hooks =
      (enrolled registrations).reverse ++ chain.hooks := by
    induction registrations with
    | nil => exact fun _ => rfl
    | cons registration rest ih =>
      intro chain
      rw [List.foldl_cons, ih, hooks_after, enrolled, enrolled, List.filterMap_cons]
      cases registration.value.toOption <;> simp
  rw [ofAll, grown, List.append_nil]

theorem enrolled_append (before after : List Registration) :
    enrolled (before ++ after) = enrolled before ++ enrolled after := List.filterMap_append

theorem enrolled_refused {registration : Registration} {e : InitError} (refused : registration.value = .error e)
    (rest : List Registration) : enrolled (registration :: rest) = enrolled rest := by
  rw [enrolled, List.filterMap_cons, refused]
  rfl

theorem enrolled_ready {registration : Registration} {hooks : Hooks} (ready : registration.value = .ok hooks)
    (rest : List Registration) : enrolled (registration :: rest) = hooks :: enrolled rest := by
  rw [enrolled, List.filterMap_cons, ready]
  rfl

section
variable {ρ α : Type}

/-- Hooks that all pass on, one after another: asked for `first`, they pass on `last` in the end. The marks
that they leave on the way are `trace`. -/
inductive PassOn (setting : Setting) : List (Hook ρ α) → (first last : ρ) → (trace : List Happening) → Prop where
  | nil (request : ρ) : PassOn setting [] request request []
  | cons {hook : Hook ρ α} {rest : List (Hook ρ α)} {request next last : ρ} {trace : List Happening} :
      (hook setting request).value = .pass next id → PassOn setting rest next last trace →
      PassOn setting (hook :: rest) request last ((hook setting request).trace ++ trace)

variable (isFinal : α → Bool) (broken : ρ → HookError) (host : ρ → Traced (Except HookError α)) (setting : Setting)

/-- The run that answers a request: by the host if all hooks pass on, or else by the first hook that does not. -/
inductive Answered (hooks : List (Hook ρ α)) (request : ρ) : Traced (Except HookError α) → Prop where
  | byHost {last : ρ} {trace : List Happening} : PassOn setting hooks request last trace →
      Answered hooks request ⟨trace ++ (host last).trace, (host last).value⟩
  | byHook {passing later : List (Hook ρ α)} {hook : Hook ρ α} {last : ρ} {trace : List Happening}
      {outcome : Except HookError α} : hooks = passing ++ hook :: later → PassOn setting passing request last trace →
      (hook setting last).value = .finish outcome → (∀ result, outcome = .ok result → isFinal result = true) →
      Answered hooks request ⟨trace ++ (hook setting last).trace, outcome⟩
  | notFinal {passing later : List (Hook ρ α)} {hook : Hook ρ α} {last : ρ} {trace : List Happening} {result : α} :
      hooks = passing ++ hook :: later → PassOn setting passing request last trace →
      (hook setting last).value = .finish (.ok result) → isFinal result = false →
      Answered hooks request ⟨trace ++ (hook setting last).trace, .error (broken last)⟩

variable {isFinal broken host setting}

/-- One more hook in front that passes on. -/
theorem Answered.cons {hooks : List (Hook ρ α)} {hook : Hook ρ α} {request next : ρ} {run : Traced (Except HookError α)}
    (passes : (hook setting request).value = .pass next id)
    (answered : Answered isFinal broken host setting hooks next run) :
    Answered isFinal broken host setting (hook :: hooks) request
      ⟨(hook setting request).trace ++ run.trace, run.value⟩ := by
  cases answered with
  | byHost passed => simpa only [List.append_assoc] using Answered.byHost (PassOn.cons passes passed)
  | byHook split passed ended final =>
    simpa only [List.append_assoc] using
      Answered.byHook (congrArg (hook :: ·) split) (PassOn.cons passes passed) ended final
  | notFinal split passed ended unfinal =>
    simpa only [List.append_assoc] using
      Answered.notFinal (congrArg (hook :: ·) split) (PassOn.cons passes passed) ended unfinal

theorem dispatch_nil (request : ρ) : dispatch isFinal broken host setting [] request = host request := rfl

theorem dispatch_pass {hook : Hook ρ α} {request next : ρ} {after : Except HookError α → Except HookError α}
    (passes : (hook setting request).value = .pass next after) (rest : List (Hook ρ α)) :
    dispatch isFinal broken host setting (hook :: rest) request =
      ⟨(hook setting request).trace ++ (dispatch isFinal broken host setting rest next).trace,
        after (dispatch isFinal broken host setting rest next).value⟩ := by
  simp only [dispatch, bind, passes, pure, List.append_nil]

theorem dispatch_finish {hook : Hook ρ α} {request : ρ} {outcome : Except HookError α}
    (ended : (hook setting request).value = .finish outcome) (rest : List (Hook ρ α)) :
    dispatch isFinal broken host setting (hook :: rest) request =
      ⟨(hook setting request).trace,
        outcome.bind fun result => if isFinal result then .ok result else .error (broken request)⟩ := by
  cases outcome <;> simp only [dispatch, bind, ended, pure, List.append_nil, Except.bind]

theorem dispatch_of_passOn {passing : List (Hook ρ α)} {request last : ρ} {trace : List Happening}
    (passed : PassOn setting passing request last trace) (rest : List (Hook ρ α)) :
    dispatch isFinal broken host setting (passing ++ rest) request =
      ⟨trace ++ (dispatch isFinal broken host setting rest last).trace,
        (dispatch isFinal broken host setting rest last).value⟩ := by
  induction passed with
  | nil request => rfl
  | cons passes _ ih =>
    rw [List.cons_append, dispatch_pass passes, ih, List.append_assoc]
    rfl

theorem Answered.eq_dispatch {hooks : List (Hook ρ α)} {request : ρ} {run : Traced (Except HookError α)}
    (answered : Answered isFinal broken host setting hooks request run) :
    dispatch isFinal broken host setting hooks request = run := by
  cases answered with
  | byHost passed => simpa only [List.append_nil, dispatch_nil] using dispatch_of_passOn passed []
  | @byHook passing later hook last trace outcome split passed ended final =>
    rw [split, dispatch_of_passOn passed, dispatch_finish ended]
    cases outcome with
    | error e => rfl
    | ok result => simp [Except.bind, final result rfl]
  | notFinal split passed ended unfinal =>
    rw [split, dispatch_of_passOn passed, dispatch_finish ended]
    simp [Except.bind, unfinal]

theorem answered_dispatch {hooks : List (Hook ρ α)} (give_back : ∀ hook ∈ hooks, hook.GivesBack) (request : ρ) :
    Answered isFinal broken host setting hooks request (dispatch isFinal broken host setting hooks request) := by
  induction hooks generalizing request with
  | nil => exact .byHost (.nil request)
  | cons hook rest ih =>
    obtain ⟨gives_back, others⟩ := List.forall_mem_cons.mp give_back
    rcases move : (hook setting request).value with outcome | ⟨next, after⟩
    · rw [dispatch_finish move]
      have first : hook :: rest = [] ++ hook :: rest := rfl
      rcases outcome with e | result
      · exact .byHook first (.nil request) move nofun
      · by_cases final : isFinal result = true
        · simp only [Except.bind, final, if_true]
          exact .byHook first (.nil request) move fun other same => Except.ok.inj same ▸ final
        · simp only [Except.bind, final]
          exact .notFinal first (.nil request) move (by simpa using final)
    · obtain rfl := gives_back setting request next after move
      rw [dispatch_pass move]
      exact (ih others next).cons move

/-- Where hooks give back what comes back, a chain of them answers with the one run that the rule allows. -/
theorem dispatch_eq_iff {hooks : List (Hook ρ α)} (give_back : ∀ hook ∈ hooks, hook.GivesBack) (request : ρ)
    (run : Traced (Except HookError α)) :
    dispatch isFinal broken host setting hooks request = run ↔ Answered isFinal broken host setting hooks request run :=
  ⟨fun same => same ▸ answered_dispatch give_back request, Answered.eq_dispatch⟩

/-- A hook that only passes on changes no result, whatever the hooks around it do. -/
theorem value_dispatch_idle {idle : Hook ρ α} (passes : ∀ request, (idle setting request).value = .pass request id)
    (before after : List (Hook ρ α)) (request : ρ) :
    (dispatch isFinal broken host setting (before ++ idle :: after) request).value =
      (dispatch isFinal broken host setting (before ++ after) request).value := by
  induction before generalizing request with
  | nil => rw [List.nil_append, dispatch_pass (passes request), List.nil_append, id]
  | cons hook rest ih =>
    rcases move : (hook setting request).value with outcome | ⟨next, finish⟩
    · rw [List.cons_append, List.cons_append, dispatch_finish move, dispatch_finish move]
    · rw [List.cons_append, List.cons_append, dispatch_pass move, dispatch_pass move, ih]

end

def Resolves (hooks : List Hooks) (setting : Setting) :
    ResolveRequest → Traced (Except HookError ResolveResult) → Prop :=
  Answered (·.shortCircuit) (fun request => .chainBroken "resolve" request.specifier)
    (fun request => pure (Host.resolve setting.fs request)) setting (hooks.map (·.resolve))

def Loads (hooks : List Hooks) (setting : Setting) : LoadRequest → Traced (Except HookError LoadResult) → Prop :=
  Answered (·.shortCircuit) (fun request => .chainBroken "load" request.url) (Host.load setting.fs) setting
    (hooks.map (·.load))

/-- Whatever modules are registered, a request is put to those that could be initialized, the last registered
first, by the rule of `Answered`. A module that is refused makes no difference to any later request, and one
that only passes on makes none to any result, wherever it stands among the others. -/
theorem ofAll_answers (registrations : List Registration)
    (give_back : ∀ hooks ∈ enrolled registrations, hooks.GiveBack) :
    (∀ setting request run, (ofAll registrations).resolve setting request = run ↔
      Resolves (enrolled registrations).reverse setting request run) ∧
    (∀ setting request run, (ofAll registrations).load setting request = run ↔
      Loads (enrolled registrations).reverse setting request run) ∧
    (∀ before refused after e, registrations = before ++ refused :: after → refused.value = .error e →
      ofAll (before ++ after) = ofAll registrations) ∧
    (∀ before idle after hooks, registrations = before ++ after → idle.value = .ok hooks → hooks.Idle →
      (∀ setting request, ((ofAll (before ++ idle :: after)).resolve setting request).value =
        ((ofAll registrations).resolve setting request).value) ∧
      ∀ setting request, ((ofAll (before ++ idle :: after)).load setting request).value =
        ((ofAll registrations).load setting request).value) := by
  refine ⟨?_, ?_, ?_, ?_⟩
  · intro setting request run
    rw [resolve, hooks_ofAll, Resolves]
    apply dispatch_eq_iff
    intro hook mem
    obtain ⟨hooks, listed, rfl⟩ := List.mem_map.mp mem
    exact (give_back hooks (List.mem_reverse.mp listed)).resolve
  · intro setting request run
    rw [load, hooks_ofAll, Loads]
    apply dispatch_eq_iff
    intro hook mem
    obtain ⟨hooks, listed, rfl⟩ := List.mem_map.mp mem
    exact (give_back hooks (List.mem_reverse.mp listed)).load
  · rintro before refused after e rfl failed
    have same : (ofAll (before ++ after)).hooks = (ofAll (before ++ refused :: after)).hooks := by
      rw [hooks_ofAll, hooks_ofAll, enrolled_append, enrolled_append, enrolled_refused failed]
    exact congrArg Chain.mk same
  · rintro before idle after hooks rfl ready passes
    have longer : (ofAll (before ++ idle :: after)).hooks =
        (enrolled after).reverse ++ hooks :: (enrolled before).reverse := by
      rw [hooks_ofAll, enrolled_append, enrolled_ready ready]
      simp
    have shorter : (ofAll (before ++ after)).hooks = (enrolled after).reverse ++ (enrolled before).reverse := by
      rw [hooks_ofAll, enrolled_append, List.reverse_append]
    constructor
    · intro setting request
      rw [resolve, resolve, longer, shorter, List.map_append, List.map_append, List.map_cons]
      exact value_dispatch_idle (passes.resolve setting) _ _ request
    · intro setting request
      rw [load, load, longer, shorter, List.map_append, List.map_append, List.map_cons]
      exact value_dispatch_idle (passes.load setting) _ _ request

/-- Answers every request to resolve, and ends every request to load without a final result. -/
def answering : Hooks where
  resolve := fun _ request => do
    Run.mark (.noted "answered")
    return .finish (.ok { url := request.specifier, shortCircuit := true })
  load := fun _ request => return .finish (.ok { source := request.url })

/-- Passes every request on under a new name. -/
def suffixing : Hooks where
  resolve := fun _ request => do
    Run.mark (.noted "renamed")
    return .pass { request with specifier := request.specifier ++ ".js" }
  load := fun _ request => return .pass { request with url := request.url ++ ".js" }

def somewhere : Setting := ⟨⟨.empty, "/d", rfl⟩, false⟩

/-- The last registered hooks are asked first and rename what the first registered are then asked for. Those
between them, which could not be initialized, are not asked. -/
theorem ofAll_answering_suffixing :
    (∀ hooks ∈ enrolled [pure (.ok answering), pure (.error (.failed "no")), pure (.ok suffixing)], hooks.GiveBack) ∧
    (ofAll [pure (.ok answering), pure (.error (.failed "no")), pure (.ok suffixing)]).resolve somewhere
        ⟨"a", "", none⟩ =
      ⟨[.noted "renamed", .noted "answered"], .ok { url := "a.js", shortCircuit := true }⟩ ∧
    (ofAll [pure (.ok answering), pure (.error (.failed "no")), pure (.ok suffixing)]).load somewhere ⟨"b", none⟩ =
      ⟨[], .error (.chainBroken "load" "b.js")⟩ := by
  have give_back : ∀ hooks ∈ enrolled [pure (.ok answering), pure (.error (.failed "no")), pure (.ok suffixing)],
      hooks.GiveBack := by
    intro hooks mem
    have either : hooks ∈ [answering, suffixing] := mem
    simp only [List.mem_cons, List.not_mem_nil, or_false] at either
    rcases either with rfl | rfl
    · exact ⟨nofun, nofun⟩
    · exact ⟨fun _ _ _ _ same => (HookMove.pass.inj same).2.symm, fun _ _ _ _ same => (HookMove.pass.inj same).2.symm⟩
  have answers := ofAll_answers [pure (.ok answering), pure (.error (.failed "no")), pure (.ok suffixing)] give_back
  refine ⟨give_back, (answers.1 _ _ _).mpr ?_, (answers.2.1 _ _ _).mpr ?_⟩
  · have split : [suffixing, answering].map (·.resolve) = [suffixing.resolve] ++ answering.resolve :: [] := rfl
    exact .byHook split (.cons rfl (.nil _)) rfl fun result same => by rw [← Except.ok.inj same]
  · have split : [suffixing, answering].map (·.load) = [suffixing.load] ++ answering.load :: [] := rfl
    exact .notFinal split (.cons rfl (.nil _)) rfl rfl

end Chain
end ScriptLoader
