import ScriptLoader.Json.Reader
import ScriptLoader.Text.Basic

/-!
The members of a configuration file, before anything is made of them. Names match without regard to
case. A null leaves its member unset. When a member is repeated, objects are merged, and the elements of a
list are read into those that stood in their places before.
-/

set_option autoImplicit false
namespace ScriptLoader

structure RawReference where
  path : String := ""
  prepend : Bool := false

structure RawConfig where
  extending : Json := .null
  compilerOptions : Fields Json := []
  files : Option (List String) := none
  included : Option (List String) := none
  excluded : Option (List String) := none
  references : List RawReference := []

namespace RawConfig

/-- The field that a written name stands for; `fields` are in lower case and in order. A name with escapes may
stop short of the field's: it stands for the first field that begins with it, provided that it is written with
as many letters as the field has. -/
def fieldOf? (fields : List String) (written : String) : Option String :=
  if written = "" then none
  else match fields.find? fun field => Text.startsWith field (Text.lowerAscii (Json.readName written)) with
    | some field => if field.length ≤ written.length then some field else none
    | none => none

/-- Reads the elements of a list, each into the one that stood in its place before. -/
def readInto? {α : Type} (fresh : α) (read? : α → Json → Option α) : List α → List Json → Option (List α)
  | _, [] => some []
  | held, item :: rest => do
    let element ← read? (held.headD fresh) item
    let elements ← readInto? fresh read? held.tail rest
    return element :: elements

def readText? (held : String) : Json → Option String
  | .string value => some value
  | .null => some held
  | _ => none

def readTexts? (held : Option (List String)) : Json → Option (Option (List String))
  | .null => some none
  | .array items => (readInto? "" readText? (held.getD []) items).map some
  | _ => none

def referenceFields : List String := ["path", "prepend"]

def readReferenceMember? (reference : RawReference) (member : String × Json) : Option RawReference :=
  match fieldOf? referenceFields member.1, member.2 with
  | some "path", .string value => some { reference with path := value }
  | some "prepend", .bool value => some { reference with prepend := value }
  | some _, .null => some reference
  | some _, _ => none
  | none, _ => some reference

def readReference? (held : RawReference) : Json → Option RawReference
  | .null => some held
  | .object members => members.foldlM readReferenceMember? held
  | _ => none

def readReferences? (held : List RawReference) : Json → Option (List RawReference)
  | .null => some []
  | .array items => readInto? {} readReference? held items
  | _ => none

def readOptions? (held : Fields Json) : Json → Option (Fields Json)
  | .null => some []
  | value =>
    match value.readNames.normal? with
    | some (.object members) => some (held.insertAll members)
    | _ => none

def configFields : List String := ["compileroptions", "exclude", "extends", "files", "include", "references"]

def readMember? (raw : RawConfig) (member : String × Json) : Option RawConfig :=
  let value := member.2
  match fieldOf? configFields member.1 with
  | some "extends" => value.readNames.normal?.map fun v => { raw with extending := v }
  | some "compileroptions" =>
    (readOptions? raw.compilerOptions value).map fun v => { raw with compilerOptions := v }
  | some "files" => (readTexts? raw.files value).map fun v => { raw with files := v }
  | some "include" => (readTexts? raw.included value).map fun v => { raw with included := v }
  | some "exclude" => (readTexts? raw.excluded value).map fun v => { raw with excluded := v }
  | some "references" => (readReferences? raw.references value).map fun v => { raw with references := v }
  | _ => some raw

def maxDepth : Nat := 10000

/-- The members of a configuration, from a value with names as they are written; `none` when one has a value
of the wrong kind. -/
def ofJson? : Json → Option RawConfig
  | .null => some {}
  | .object members =>
    if maxDepth < (Json.object members).depth then none else members.foldlM readMember? {}
  | _ => none

end RawConfig
end ScriptLoader
