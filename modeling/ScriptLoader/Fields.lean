/-!
Finite maps from names to values, kept as association lists in increasing order of the names. The
order is the order in which every listing of names is shown.
-/

set_option autoImplicit false
namespace ScriptLoader

/-- Names with values. Lists built by `Fields.insert` have strictly increasing names. -/
abbrev Fields (α : Type) := List (String × α)

namespace Fields
variable {α : Type}

/-- Sets a name's value and keeps the names in increasing order. -/
def insert (name : String) (value : α) : Fields α → Fields α
  | [] => [(name, value)]
  | (other, held) :: rest =>
    if name < other then (name, value) :: (other, held) :: rest
    else if name = other then (name, value) :: rest
    else (other, held) :: insert name value rest

def get? (fields : Fields α) (name : String) : Option α := fields.lookup name

def contains (fields : Fields α) (name : String) : Bool := (fields.get? name).isSome

/-- Inserts pairs from the left, so that of two pairs with one name the later stays. -/
def insertAll (fields : Fields α) (added : List (String × α)) : Fields α :=
  added.foldl (fun held field => held.insert field.1 field.2) fields

def ofList (pairs : List (String × α)) : Fields α := insertAll [] pairs

def names (fields : Fields α) : List String := fields.map Prod.fst

end Fields
end ScriptLoader
