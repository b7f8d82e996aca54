/-! What is settled about a loader before it begins. -/

set_option autoImplicit false
namespace ScriptLoader

structure LoaderOptions where
  /-- Whether diagnostics of types and options count; they do when this is not set. -/
  check : Option Bool := none
  /-- The configuration for files that no project lists. -/
  defaults : String := ""
  deriving DecidableEq, Repr

def LoaderOptions.checkEnabled (o : LoaderOptions) : Bool := o.check.getD true

end ScriptLoader
