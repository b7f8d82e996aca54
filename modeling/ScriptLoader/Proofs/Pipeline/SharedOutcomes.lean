import ScriptLoader.Pipeline.SharedBuilds
import ScriptLoader.Proofs.Pipeline.ReferencesHeeded
import Mathlib.Data.List.Induction

/-!
What callers get who share builds. The history alone decides it: everybody who asked for a project since its
build last ended gets the result that the first of them brought about, and each judges it for itself. So the
calling off of the first is felt by the others.
-/

set_option autoImplicit false
namespace ScriptLoader.Pipeline

namespace SharedBuilds

/-- One step as those see it who wait for a project. -/
def queue (path : String) (callers : List Caller) : SharedStep → List Caller
  | .request caller asked => if asked = path then callers ++ [caller] else callers
  | .callOff _ => callers
  | .finish ended => if ended = path then [] else callers

/-- Who waits for a project: those who asked for it since its build last ended, in order. -/
def waiting (path : String) (steps : List SharedStep) : List Caller := steps.foldl (queue path) []

section
variable {build : String → Bool → Except EngineError Unit} {root : Caller → String} {path : String}

end

/-- The builds of an engine, which learns whether the caller was called off on whose behalf it builds. -/
def engineBuild (engine : Engine) (fs : FileSystem) (configs : String → Project.Config)
    (path : String) (cancelled : Bool) :
    Except EngineError Unit :=
  (engine.buildProject ⟨fs, cancelled⟩ (configs path)).value

/-- A caller without company gets what a build gives that nobody shares. -/
theorem run_alone (engine : Engine) (fs : FileSystem) {configs : String → Project.Config} (root : Caller → String)
    (caller : Caller) {path : String} (named : (configs path).path = path) :
    (run (engineBuild engine fs configs) root [.request caller path, .finish path]).outcomes =
      [(caller, path, (buildOne engine ⟨fs, false⟩ (root caller) (configs path)).value)] := by
  simp [run, step, request, finish, outcome, engineBuild, value_buildOne, named]

def oneSource (path : String) : Project.Config := ⟨path, {}, ["/p/q/b.ts"], [], []⟩

end SharedBuilds
end ScriptLoader.Pipeline
