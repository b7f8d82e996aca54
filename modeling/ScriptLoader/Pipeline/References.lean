import ScriptLoader.Engine.Basic
import ScriptLoader.Graph.Sort

/-!
The projects that a project refers to, directly and through others. They are built before it, each after
the projects it refers to itself; the project is not built itself.
-/

set_option autoImplicit false
namespace ScriptLoader.Pipeline

/-- The configurations found so far by their paths, `none` for one that cannot be used. -/
abbrev Found := List (String × Option Project.Config)

/-- Reads the configurations of references that were not looked at before. Gives what is found then, and the
new ones. -/
def readReferences (fs : FileSystem) : Found → List String → Traced (Found × List Project.Config)
  | found, [] => pure (found, [])
  | found, path :: rest =>
    if (found.lookup path).isSome then readReferences fs found rest
    else do
      match ← (Project.parse fs path).relabel .log with
      | .error e =>
        Run.mark (.log (.debug "pipeline" "referenced project unusable"
          [("config", .text path), ("error", .text e.message)]))
        readReferences fs (found ++ [(path, none)]) rest
      | .ok config =>
        let (found, configs) ← readReferences fs (found ++ [(path, some config)]) rest
        return (found, config :: configs)

def nodeOf (config : Project.Config) : Graph.Node := ⟨config.path, config.references.map (·.path)⟩

/-- Reads everything that the waiting configurations refer to, the nearest first; the fuel bounds the number
of configurations that are looked at. -/
def discover (fs : FileSystem) : Nat → Found → List Project.Config → Traced (Found × List Graph.Node)
  | 0, found, _ => pure (found, [])
  | _ + 1, found, [] => pure (found, [])
  | fuel + 1, found, config :: waiting => do
    let (found, more) ← readReferences fs found (nodeOf config).dependencies
    let (found, nodes) ← discover fs fuel found (waiting ++ more)
    return (found, nodeOf config :: nodes)

inductive BuildOutcome where
  | built
  | failed (d : Diagnostic)
  | calledOff
  deriving DecidableEq, Repr

def notBuilt (root path : String) (e : EngineError) : Diagnostic :=
  (Diagnostic.ofError .referenceNotBuilt
    ("Referenced project '" ++ path ++ "' could not be built: " ++ e.message)).inFile root

/-- What a caller makes of the result of a build. An error counts only as long as the caller was not called off. -/
def BuildOutcome.ofResult (root path : String) (cancelled : Bool) : Except EngineError Unit → BuildOutcome
  | .ok () => .built
  | .error e => if cancelled then .calledOff else .failed (notBuilt root path e)

def buildLog (path : String) (cancelled : Bool) : Except EngineError Unit → List LogEntry
  | .ok () => [.debug "pipeline" "reference built" [("config", .text path), ("shared", .flag false)]]
  | .error e =>
    if cancelled then []
    else [⟨.warn, "pipeline", "reference build failed", [("config", .text path), ("error", .text e.message)]⟩]

def buildOne (engine : Engine) (setting : Setting) (root : String) (config : Project.Config) :
    Traced BuildOutcome := do
  Run.mark (.askedBuild config)
  let result ← engine.buildProject setting config
  Run.marks ((buildLog config.path setting.cancelled result).map .log)
  return .ofResult root config.path setting.cancelled result

def buildBatch (engine : Engine) (setting : Setting) (root : String) :
    List Project.Config → Traced (List BuildOutcome)
  | [] => pure []
  | config :: rest => do
    let outcome ← buildOne engine setting root config
    let outcomes ← buildBatch engine setting root rest
    return outcome :: outcomes

def BuildOutcome.failure? : BuildOutcome → Option Diagnostic
  | .failed d => some d
  | _ => none

/-- Builds batch after batch. A failed build does not keep others from being built; when work is called off,
no further batch is begun. -/
def buildBatches (engine : Engine) (setting : Setting) (root : String) :
    List (List Project.Config) → Traced (Except Failure (List Diagnostic))
  | [] => pure (.ok [])
  | batch :: rest => do
    let outcomes ← buildBatch engine setting root batch
    if outcomes.contains .calledOff then return .error .cancelled
    else
      match ← buildBatches engine setting root rest with
      | .error e => return .error e
      | .ok later => return .ok (outcomes.filterMap BuildOutcome.failure? ++ later)

structure ReferenceBuilds where
  graph : List Diagnostic := []
  failed : List Diagnostic := []

def batchConfigs (root : String) (found : Found) (paths : List String) : List Project.Config :=
  (paths.filter (· ≠ root)).filterMap fun path => (found.lookup path).join

/-- Builds every project reachable through the references of a project. -/
def buildReferences (engine : Engine) (setting : Setting) (root : Project.Config) :
    Traced (Except Failure ReferenceBuilds) := do
  let (found, nodes) ← discover setting.fs FileSystem.pathBound [(root.path, some root)] [root]
  let graph := Graph.ofNodes nodes
  let order := graph.sort
  let problems := graph.build.reported ++ ((graph.cycle? order).map (·.inFile root.path)).toList
  let batches := order.batches.map fun batch => batchConfigs root.path found (batch.map graph.path)
  match ← buildBatches engine setting root.path batches with
  | .error e => return .error e
  | .ok failed => return .ok ⟨problems, failed⟩

end ScriptLoader.Pipeline
