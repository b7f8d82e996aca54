import ScriptLoader.Decimal.Shortest
import ScriptLoader.Fields

/-!
JSON values. An object keeps its members as they were written, repeated names included, until `normal` settles
them.
-/

set_option autoImplicit false
namespace ScriptLoader

inductive Json where
  | null
  | bool (value : Bool)
  | number (value : Decimal)
  | string (value : String)
  | array (items : List Json)
  | object (members : List (String × Json))
  deriving Inhabited, Repr, BEq

namespace Json

def ofInt (n : Int) : Json := .number (.ofInt n)

def ofNat (n : Nat) : Json := .ofInt n

def strings (items : List String) : Json := .array (items.map .string)

mutual

/-- Object members in order of their names, of two members with one name the later; numbers as binary64.
`none` when a number is beyond the finite ones. -/
def normal? : Json → Option Json
  | .null => some .null
  | .bool value => some (.bool value)
  | .number value => value.toBinary64?.map .number
  | .string value => some (.string value)
  | .array items => (normalItems? items).map .array
  | .object members => (normalMembers? members).map fun found => .object (Fields.ofList found)

def normalItems? : List Json → Option (List Json)
  | [] => some []
  | item :: rest => do
    let item ← normal? item
    let rest ← normalItems? rest
    return item :: rest

def normalMembers? : List (String × Json) → Option (List (String × Json))
  | [] => some []
  | (name, value) :: rest => do
    let value ← normal? value
    let rest ← normalMembers? rest
    return (name, value) :: rest

end

mutual

def depth : Json → Nat
  | .array items => depthOfItems items + 1
  | .object members => depthOfMembers members + 1
  | _ => 0

def depthOfItems : List Json → Nat
  | [] => 0
  | item :: rest => max (depth item) (depthOfItems rest)

def depthOfMembers : List (String × Json) → Nat
  | [] => 0
  | (_, value) :: rest => max (depth value) (depthOfMembers rest)

end

end Json
end ScriptLoader
