import ScriptLoader.Hooks.Chain
import ScriptLoader.Hooks.Payload

/-!
The hooks that compile sources on demand. Their options are delivered once, as bytes, and never change
afterwards.
-/

set_option autoImplicit false
namespace ScriptLoader

inductive InitError where
  | unreadableOptions
  | alreadyInitialized
  | failed (message : String)
  deriving DecidableEq, Repr

def InitError.message : InitError → String
  | .unreadableOptions => "decode loader options: malformed payload"
  | .alreadyInitialized => "tsload hooks already initialized"
  | .failed message => message

def InitError.refusal (e : InitError) : String := "initialize hooks: " ++ e.message

/-- A loader; it has no options before it is initialized. -/
structure Loader where
  engine : Engine
  options : Option LoaderOptions := none

namespace Loader

def init (loader : Loader) (payload : List UInt8) : Traced (Except InitError Loader) :=
  match LoaderOptions.ofPayload? payload with
  | none => pure (.error .unreadableOptions)
  | some o =>
    if loader.options.isSome then pure (.error .alreadyInitialized)
    else do
      Run.mark (.log (.debug "hooks" "hooks initialized"
        [("check", .flag o.checkEnabled), ("defaults", .text o.defaults)]))
      return .ok { loader with options := some o }

def pipeline? (loader : Loader) : Option Pipeline := loader.options.map fun o => ⟨loader.engine, o⟩

def concerns (url : String) : Bool := Text.startsWith url "file:" && SourceName.endsLikeSource url

/-- The name that the engine is asked to resolve: the path of a file URL, or the specifier itself. -/
def engineName (specifier : String) : Except FileUrlError String :=
  if Text.startsWith specifier "file:" then FileUrl.toPath specifier else .ok specifier

def resolve (loader : Loader) : Hook ResolveRequest ResolveResult := fun setting request =>
  if concerns request.parent then
    match loader.pipeline? with
    | none => pure (.finish (.error .notInitialized))
    | some pipeline =>
      match engineName request.specifier, FileUrl.toPath request.parent with
      | .error e, _ => pure (.finish (.error (.url e)))
      | .ok _, .error e => pure (.finish (.error (.url e)))
      | .ok name, .ok parent => do
        match ← pipeline.resolve setting name parent with
        | none => return .pass request
        | some file =>
          return .finish (.ok
            { url := FileUrl.ofPath setting.fs file, attributes := request.attributes, shortCircuit := true })
  else pure (.pass request)

def load (loader : Loader) : Hook LoadRequest LoadResult := fun setting request =>
  if concerns request.url then
    match loader.pipeline? with
    | none => pure (.finish (.error .notInitialized))
    | some pipeline =>
      match FileUrl.toPath request.url with
      | .error e => pure (.finish (.error (.url e)))
      | .ok file => do
        match ← pipeline.compile setting file request.format with
        | .error e => return .finish (.error (.compilation e))
        | .ok output =>
          return .finish (.ok { source := output.source, format := some output.format, shortCircuit := true })
  else pure (.pass request)

def hooks (loader : Loader) : Hooks := ⟨loader.resolve, loader.load⟩

end Loader

namespace Chain

/-- Puts hooks in front once they are initialized; those that cannot be initialized leave the chain as it is. -/
def enroll {μ : Type} (chain : Chain) (hooks : μ → Hooks) (init : Traced (Except InitError μ)) :
    Traced (Except InitError (Chain × μ)) := do
  match ← init with
  | .error e => return .error e
  | .ok ready => return .ok (chain.push (hooks ready), ready)

def registerLoader (chain : Chain) (loader : Loader) (payload : List UInt8) :
    Traced (Except InitError (Chain × Loader)) :=
  chain.enroll Loader.hooks (loader.init payload)

def register (chain : Chain) (engine : Engine) (options : LoaderOptions) :
    Traced (Except InitError (Chain × Loader)) :=
  chain.registerLoader { engine := engine } options.toPayload

end Chain
end ScriptLoader
