import ScriptLoader.Fields
import ScriptLoader.Pipeline.Compile
import ScriptLoader.Url.File

/-!
Hooks through which a host resolves and loads modules. A hook answers a request, fails, or passes a request
on and finishes what comes back.
-/

set_option autoImplicit false
namespace ScriptLoader

inductive HookError where
  | compilation (e : CompileError)
  | url (e : FileUrlError)
  | parentUrl (specifier : String) (e : FileUrlError)
  | packageNotFound (specifier parent : String)
  | moduleNotFound (path : String)
  | unknownExtension (path : String)
  | unreadable (e : FileError)
  /-- A hook neither answered for good nor passed on; `act` is what it was asked for. -/
  | chainBroken (act request : String)
  | notInitialized
  | failed (message : String)
  deriving DecidableEq, Repr

def HookError.message (cwd : String) : HookError → String
  | .compilation e => e.message cwd
  | .url e => e.message
  | .parentUrl specifier e => "resolve " ++ Text.quoted specifier ++ ": " ++ e.message
  | .packageNotFound specifier parent =>
    "cannot find package " ++ Text.quoted specifier ++ " imported from " ++ parent ++ ": module not found"
  | .moduleNotFound path => "cannot find module " ++ Text.quoted path ++ ": module not found"
  | .unknownExtension path =>
    "unknown file extension " ++ Text.quoted (Path.ext path) ++ " for " ++ path
  | .unreadable e => e.message
  | .chainBroken act request => act ++ " " ++ Text.quoted request ++ ": hook did not call next or short circuit"
  | .notInitialized => "tsload hooks used before initialization"
  | .failed message => message

abbrev Attributes := Option (Fields String)

/-- Asks which module a specifier means. The parent is the URL of the importing module, empty for an entry point. -/
structure ResolveRequest where
  specifier : String
  parent : String := ""
  attributes : Attributes := none
  deriving DecidableEq, Repr

structure ResolveResult where
  url : String
  format : Option ModuleFormat := none
  attributes : Attributes := none
  /-- Whether the result is final, without asking the hooks that follow. -/
  shortCircuit : Bool := false
  deriving DecidableEq, Repr

structure LoadRequest where
  url : String
  format : Option ModuleFormat := none
  deriving DecidableEq, Repr

structure LoadResult where
  source : String
  format : Option ModuleFormat := none
  shortCircuit : Bool := false
  deriving DecidableEq, Repr

/-- What a hook makes of a request: it ends with an outcome of its own, or passes a request on. -/
inductive HookMove (ρ α : Type) where
  | finish (outcome : Except HookError α)
  | pass (request : ρ) (after : Except HookError α → Except HookError α := id)

abbrev Hook (ρ α : Type) := Setting → ρ → Traced (HookMove ρ α)

structure Hooks where
  resolve : Hook ResolveRequest ResolveResult
  load : Hook LoadRequest LoadResult

end ScriptLoader
