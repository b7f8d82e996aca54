import ScriptLoader.Options.Normalize

/-!
Sets of options under names, for work with several of them. A name may hold none at all, which counts as
options of which none is set. Putting options on top of others changes the latter in their place; a copy and a
normal form have places of their own.
-/

set_option autoImplicit false
namespace ScriptLoader

abbrev OptionSets := Fields CompilerOptions

namespace OptionSets

def held (sets : OptionSets) (name : String) : CompilerOptions := (sets.get? name).getD .empty

def clone (sets : OptionSets) (target source : String) : OptionSets := sets.insert target (sets.held source).clone

def merge (sets : OptionSets) (target source : String) : OptionSets :=
  sets.insert target ((sets.held target).merge (sets.held source))

def normalize (sets : OptionSets) (target source : String) (check : Bool) : OptionSets :=
  sets.insert target ((sets.held source).normalize check)

end OptionSets
end ScriptLoader
