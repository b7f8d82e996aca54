import ScriptLoader.Json.Basic

/-! Members of JSON objects. What is missing or of another kind counts as empty. -/

set_option autoImplicit false
namespace ScriptLoader.Json.Access

def get (j : Json) (name : String) : Json :=
  match j with
  | .object members => (members.lookup name).getD .null
  | _ => .null

def has (j : Json) (name : String) : Bool :=
  match j with
  | .object members => (members.lookup name).isSome
  | _ => false

def asString : Json → String
  | .string s => s
  | _ => ""

def asInt : Json → Int
  | .number d => d.toInt?.getD 0
  | _ => 0

def asBool : Json → Bool
  | .bool b => b
  | _ => false

def asList : Json → List Json
  | .array items => items
  | _ => []

def asMembers : Json → List (String × Json)
  | .object members => members
  | _ => []

/-- Whether a member is there and is not null. -/
def isGiven (j : Json) (name : String) : Bool :=
  match get j name with
  | .null => false
  | _ => true

def str (j : Json) (name : String) : String := asString (get j name)
def int (j : Json) (name : String) : Int := asInt (get j name)
def nat (j : Json) (name : String) : Nat := (int j name).toNat
def bool (j : Json) (name : String) : Bool := asBool (get j name)
def list (j : Json) (name : String) : List Json := asList (get j name)
def strs (j : Json) (name : String) : List String := (list j name).map asString

def optInt (j : Json) (name : String) : Option Int :=
  match get j name with
  | .number d => d.toInt?
  | _ => none

end ScriptLoader.Json.Access
