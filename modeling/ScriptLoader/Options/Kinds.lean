import ScriptLoader.Text.Basic
import ScriptLoader.Text.CaseFold
import ScriptLoader.Text.Quoted

/-!
The values of the enumerated compiler options. A value is a number; the table of an enumeration gives
the spellings of the numbers that have a name, and ranges of numbers form families.
-/

set_option autoImplicit false
namespace ScriptLoader

structure UnknownName where
  enumeration : String
  word : String
  deriving DecidableEq, Repr

def UnknownName.message (e : UnknownName) : String :=
  "unknown " ++ e.enumeration ++ " " ++ Text.quoted e.word

/-- The spellings of an enumeration's values, in the order in which they are listed. -/
abbrev Spellings (α : Type) := List (String × α)

namespace Spellings
variable {α : Type}

/-- The value of a spelling, without regard to case. -/
def value? (spellings : Spellings α) (word : String) : Option α :=
  (spellings.find? fun entry => Text.sameName entry.1 word).map Prod.snd

def name? [DecidableEq α] (spellings : Spellings α) (value : α) : Option String :=
  (spellings.find? fun entry => entry.2 = value).map Prod.fst

def choices (spellings : Spellings α) : String :=
  String.intercalate ", " (spellings.map fun entry => "'" ++ Text.lowerAscii entry.1 ++ "'")

end Spellings

structure ModuleKind where
  value : Int
  deriving DecidableEq, Repr, Inhabited

namespace ModuleKind

def unset : ModuleKind := ⟨0⟩
def commonJS : ModuleKind := ⟨1⟩
def amd : ModuleKind := ⟨2⟩
def umd : ModuleKind := ⟨3⟩
def system : ModuleKind := ⟨4⟩
def es2015 : ModuleKind := ⟨5⟩
def es2020 : ModuleKind := ⟨6⟩
def es2022 : ModuleKind := ⟨7⟩
def esNext : ModuleKind := ⟨99⟩
def node16 : ModuleKind := ⟨100⟩
def node18 : ModuleKind := ⟨101⟩
def node20 : ModuleKind := ⟨102⟩
def nodeNext : ModuleKind := ⟨199⟩
def preserve : ModuleKind := ⟨200⟩

def spellings : Spellings ModuleKind := [
  ("None", unset), ("CommonJS", commonJS), ("AMD", amd), ("UMD", umd), ("System", system),
  ("ES2015", es2015), ("ES6", es2015), ("ES2020", es2020), ("ES2022", es2022), ("ESNext", esNext),
  ("Node16", node16), ("Node18", node18), ("Node20", node20), ("NodeNext", nodeNext),
  ("Preserve", preserve)]

/-- Emits modules of the language's own whatever the file. -/
def isES (kind : ModuleKind) : Bool := es2015.value ≤ kind.value && kind.value ≤ esNext.value

/-- Decides the module system file by file. -/
def isNode (kind : ModuleKind) : Bool := node16.value ≤ kind.value && kind.value ≤ nodeNext.value

def name (kind : ModuleKind) : String := (spellings.name? kind).getD (toString kind.value)

def word (kind : ModuleKind) : String := Text.lowerAscii kind.name

def ofWord (word : String) : Except UnknownName ModuleKind :=
  match spellings.value? word with
  | some kind => .ok kind
  | none => .error ⟨"module kind", word⟩

end ModuleKind

structure ResolutionKind where
  value : Int
  deriving DecidableEq, Repr, Inhabited

namespace ResolutionKind

def classic : ResolutionKind := ⟨1⟩
def node10 : ResolutionKind := ⟨2⟩
def node16 : ResolutionKind := ⟨3⟩
def nodeNext : ResolutionKind := ⟨99⟩
def bundler : ResolutionKind := ⟨100⟩

def spellings : Spellings ResolutionKind := [
  ("Classic", classic), ("Node10", node10), ("Node", node10), ("Node16", node16),
  ("NodeNext", nodeNext), ("Bundler", bundler)]

def name (kind : ResolutionKind) : String := (spellings.name? kind).getD (toString kind.value)

def word (kind : ResolutionKind) : String := Text.lowerAscii kind.name

def ofWord (word : String) : Except UnknownName ResolutionKind :=
  match spellings.value? word with
  | some kind => .ok kind
  | none => .error ⟨"module resolution", word⟩

end ResolutionKind

structure ScriptTarget where
  value : Int
  deriving DecidableEq, Repr, Inhabited

namespace ScriptTarget

def es3 : ScriptTarget := ⟨0⟩
def es5 : ScriptTarget := ⟨1⟩
def es2015 : ScriptTarget := ⟨2⟩
def es2016 : ScriptTarget := ⟨3⟩
def es2017 : ScriptTarget := ⟨4⟩
def es2018 : ScriptTarget := ⟨5⟩
def es2019 : ScriptTarget := ⟨6⟩
def es2020 : ScriptTarget := ⟨7⟩
def es2021 : ScriptTarget := ⟨8⟩
def es2022 : ScriptTarget := ⟨9⟩
def es2023 : ScriptTarget := ⟨10⟩
def es2024 : ScriptTarget := ⟨11⟩
def esNext : ScriptTarget := ⟨99⟩

def spellings : Spellings ScriptTarget := [
  ("ES3", es3), ("ES5", es5), ("ES2015", es2015), ("ES6", es2015), ("ES2016", es2016),
  ("ES2017", es2017), ("ES2018", es2018), ("ES2019", es2019), ("ES2020", es2020), ("ES2021", es2021),
  ("ES2022", es2022), ("ES2023", es2023), ("ES2024", es2024), ("ESNext", esNext)]

def name (target : ScriptTarget) : String := (spellings.name? target).getD (toString target.value)

def word (target : ScriptTarget) : String := Text.lowerAscii target.name

def ofWord (word : String) : Except UnknownName ScriptTarget :=
  match spellings.value? word with
  | some target => .ok target
  | none => .error ⟨"target", word⟩

end ScriptTarget
end ScriptLoader
