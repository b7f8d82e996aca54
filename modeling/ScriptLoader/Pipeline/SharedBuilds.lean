import ScriptLoader.Pipeline.References

/-!
Builds that callers share. Of the callers that ask for one project at a time the first leads: the project is
built once, on behalf of the leader, and all of them get its result. Each caller judges the result by
whether it was itself called off.
-/

set_option autoImplicit false
namespace ScriptLoader.Pipeline

abbrev Caller := Nat

/-- A build under way: who leads it, and who waits for it too. -/
structure SharedBuild where
  leader : Caller
  others : List Caller := []
  deriving DecidableEq, Repr

inductive SharedStep where
  | request (caller : Caller) (path : String)
  | callOff (caller : Caller)
  | finish (path : String)
  deriving DecidableEq, Repr

structure SharedBuilds where
  cancelled : List Caller := []
  running : List (String × SharedBuild) := []
  outcomes : List (Caller × String × BuildOutcome) := []
  deriving DecidableEq, Repr

namespace SharedBuilds

def request (state : SharedBuilds) (caller : Caller) (path : String) : SharedBuilds :=
  match state.running.lookup path with
  | none => { state with running := (path, { leader := caller }) :: state.running }
  | some _ =>
    { state with running := state.running.map fun (running, build) =>
        if running = path then (running, { build with others := build.others ++ [caller] }) else (running, build) }

def outcome (state : SharedBuilds) (root : Caller → String) (path : String) (result : Except EngineError Unit)
    (caller : Caller) : Caller × String × BuildOutcome :=
  (caller, path, .ofResult (root caller) path (state.cancelled.contains caller) result)

/-- Ends the build of a project. The engine learns whether the leader was called off, and of nobody else. -/
def finish (build : String → Bool → Except EngineError Unit) (root : Caller → String) (state : SharedBuilds)
    (path : String) : SharedBuilds :=
  match state.running.lookup path with
  | none => state
  | some shared =>
    let result := build path (state.cancelled.contains shared.leader)
    { state with
      running := state.running.filter (·.1 ≠ path)
      outcomes := (shared.leader :: shared.others).map (state.outcome root path result) ++ state.outcomes }

def step (build : String → Bool → Except EngineError Unit) (root : Caller → String) (state : SharedBuilds) :
    SharedStep → SharedBuilds
  | .request caller path => state.request caller path
  | .callOff caller => { state with cancelled := caller :: state.cancelled }
  | .finish path => state.finish build root path

def run (build : String → Bool → Except EngineError Unit) (root : Caller → String) (steps : List SharedStep) :
    SharedBuilds :=
  steps.foldl (step build root) {}

end SharedBuilds
end ScriptLoader.Pipeline
