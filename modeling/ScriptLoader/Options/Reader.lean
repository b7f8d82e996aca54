import ScriptLoader.Diagnostic.Basic
import ScriptLoader.Options.Basic
import ScriptLoader.Path

/-!
Compiler options from the members of a `compilerOptions` object. A member that cannot be used is
reported and left out; members are read in order of their names.
-/

set_option autoImplicit false
namespace ScriptLoader

inductive OptionKey where
  | moduleKind
  | resolution
  | target
  | jsx
  | path (p : PathOption)
  | flag (f : Flag)
  | extra
  deriving DecidableEq, Repr

def OptionKey.ofName (name : String) : OptionKey :=
  if name = "module" then .moduleKind
  else if name = "moduleResolution" then .resolution
  else if name = "target" then .target
  else if name = "jsx" then .jsx
  else match PathOption.all.find? (·.name = name) with
    | some p => .path p
    | none =>
      match Flag.all.find? (·.name = name) with
      | some f => .flag f
      | none => .extra

namespace CompilerOptions

def badChoice {α : Type} (name : String) (spellings : Spellings α) : Diagnostic :=
  .ofError .invalidOptionValue
    ("Argument for '--" ++ name ++ "' option must be: " ++ spellings.choices ++ ".")

def badType (name type : String) : Diagnostic :=
  .ofError .invalidOptionValue
    ("Compiler option '" ++ name ++ "' requires a value of type " ++ type ++ ".")

def readChoice {α : Type} (name : String) (spellings : Spellings α) : Json → Except Diagnostic α
  | .string word =>
    match spellings.value? word with
    | some value => .ok value
    | none => .error (badChoice name spellings)
  | _ => .error (badChoice name spellings)

def readString (name : String) : Json → Except Diagnostic String
  | .string value => .ok value
  | _ => .error (badType name "string")

def readBool (name : String) : Json → Except Diagnostic Bool
  | .bool value => .ok value
  | _ => .error (badType name "boolean")

def resolvePath (base value : String) : String :=
  Path.clean (if Path.isAbs value then value else Path.join [base, value])

def readMember (base : String) (o : CompilerOptions) (name : String) (value : Json) :
    Except Diagnostic CompilerOptions :=
  match OptionKey.ofName name with
  | .moduleKind => (readChoice name ModuleKind.spellings value).map fun v => { o with moduleKind := some v }
  | .resolution => (readChoice name ResolutionKind.spellings value).map fun v => { o with resolution := some v }
  | .target => (readChoice name ScriptTarget.spellings value).map fun v => { o with target := some v }
  | .jsx => (readString name value).map fun v => { o with jsx := some v }
  | .path p => (readString name value).map fun v => o.setPath p (some (resolvePath base v))
  | .flag f => (readBool name value).map fun v => o.setFlag f (some v)
  | .extra => .ok { o with extra := o.extra.insert name value }

def readMembers (base : String) : CompilerOptions → List (String × Json) → CompilerOptions × List Diagnostic
  | o, [] => (o, [])
  | o, (name, value) :: rest =>
    match readMember base o name value with
    | .ok o => readMembers base o rest
    | .error d =>
      let (o, reported) := readMembers base o rest
      (o, d :: reported)

/-- The options of a `compilerOptions` object, with relative paths seen from `base`, and what could not be used. -/
def ofFields (base : String) (raw : Fields Json) : CompilerOptions × List Diagnostic :=
  readMembers base .empty raw

end CompilerOptions
end ScriptLoader
