import ScriptLoader.Hooks.Host

/-!
The chain of hooks. The hooks registered last are asked first, and the host comes after all of them.
-/

set_option autoImplicit false
namespace ScriptLoader

/-- The registered hooks, the last registered first. -/
structure Chain where
  hooks : List Hooks := []

namespace Chain

/-- Asks hook after hook until one does not pass on, and the host in the end. A hook that ends without a final
result breaks the chain. -/
def dispatch {ρ α : Type} (isFinal : α → Bool) (broken : ρ → HookError)
    (host : ρ → Traced (Except HookError α)) (setting : Setting) :
    List (Hook ρ α) → ρ → Traced (Except HookError α)
  | [], request => host request
  | hook :: rest, request => do
    match ← hook setting request with
    | .finish (.error e) => return .error e
    | .finish (.ok result) => return if isFinal result then .ok result else .error (broken request)
    | .pass next after => return after (← dispatch isFinal broken host setting rest next)

def resolve (chain : Chain) (setting : Setting) (request : ResolveRequest) :
    Traced (Except HookError ResolveResult) :=
  dispatch (·.shortCircuit) (fun request => .chainBroken "resolve" request.specifier)
    (fun request => pure (Host.resolve setting.fs request)) setting (chain.hooks.map (·.resolve)) request

def load (chain : Chain) (setting : Setting) (request : LoadRequest) : Traced (Except HookError LoadResult) :=
  dispatch (·.shortCircuit) (fun request => .chainBroken "load" request.url)
    (Host.load setting.fs) setting (chain.hooks.map (·.load)) request

def push (chain : Chain) (hooks : Hooks) : Chain := ⟨hooks :: chain.hooks⟩

end Chain
end ScriptLoader
