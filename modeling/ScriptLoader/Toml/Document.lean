import ScriptLoader.Toml.Reader

/-!
The table that the statements of a TOML text build up. A table that is only implied by a longer key may be
defined later, and a key that was given an array may be given something else; anything else is defined once.
-/

set_option autoImplicit false
namespace ScriptLoader.Toml

/-- What a key stands for; numbers, dates and the items of arrays are of no interest here. -/
inductive Node where
  | text (value : String)
  | flag (value : Bool)
  | plain
  | list
  | table (members : List (String × Node))
  | tables (elements : List (List (String × Node)))

abbrev Members := List (String × Node)

def Members.put (members : Members) (name : String) (node : Node) : Members :=
  if (members.lookup name).isSome then
    List.map (fun (other, held) => if other = name then (name, node) else (other, held)) members
  else members ++ [(name, node)]

/-- The table that a path of keys leads to; of several tables under one key the last. -/
def Members.find? (members : Members) : Key → Option Members
  | [] => some members
  | name :: rest =>
    match members.lookup name with
    | some (.table inner) => Members.find? inner rest
    | some (.tables elements) => (elements.getLast?).bind fun inner => Members.find? inner rest
    | _ => none

def Members.change? (f : Members → Members) (members : Members) : Key → Option Members
  | [] => some (f members)
  | name :: rest =>
    match members.lookup name with
    | some (.table inner) => (Members.change? f inner rest).map fun inner => members.put name (.table inner)
    | some (.tables elements) => do
      let inner ← Members.change? f (← elements.getLast?) rest
      return members.put name (.tables (elements.dropLast ++ [inner]))
    | _ => none

structure Document where
  root : Members := []
  /-- Tables that are only implied so far. -/
  implied : List Key := []
  /-- Keys that were last given an array. -/
  arrays : List Key := []
  order : List Key := []

namespace Document

def imply (d : Document) (key : Key) : Document := { d with implied := key :: d.implied }

def settle (d : Document) (key : Key) : Document := { d with implied := d.implied.filter (· ≠ key) }

/-- The key under which the kind of a value is remembered: a value without a name decides the kind of its table. -/
def kindKey (context : Key) (name : String) : Key := if name = "" ∧ context ≠ [] then context else context ++ [name]

def setArray (d : Document) (key : Key) (isArray : Bool) : Document :=
  let others := d.arrays.filter (· ≠ key)
  { d with arrays := if isArray then key :: others else others }

def note (d : Document) (key : Key) : Document := { d with order := d.order ++ [key] }

/-- Defines a name in the table of a context. An implied table keeps what it holds. -/
def define? (d : Document) (context : Key) (name : String) (node : Node) : Option Document := do
  let table ← d.root.find? context
  let key := context ++ [name]
  let put : Option Document :=
    (d.root.change? (fun members => Members.put members name node) context).map fun root => { d with root := root }
  if (table.lookup name).isNone then put
  else if d.arrays.contains key then put.map (·.settle key)
  else if d.implied.contains key then some (d.settle key)
  else none

def implyParents? (d : Document) : Key → Key → Option Document
  | _, [] => some d
  | above, name :: rest => do
    let table ← d.root.find? above
    let key := above ++ [name]
    let d ← if (table.lookup name).isSome then some d
      else (d.root.change? (fun members => Members.put members name (.table [])) above).map fun root =>
        (({ d with root := root } : Document).imply key)
    let _ ← d.root.find? key
    implyParents? d key rest

def openTable? (d : Document) (key : Key) : Option Document := do
  let d ← d.implyParents? [] key.dropLast
  d.define? key.dropLast (key.getLastD "") (.table [])

def openElement? (d : Document) (key : Key) : Option Document := do
  let d ← d.implyParents? [] key.dropLast
  let table ← d.root.find? key.dropLast
  let name := key.getLastD ""
  let elements ← match table.lookup name with
    | none => some []
    | some (.tables elements) => some elements
    | some _ => none
  let root ← d.root.change? (fun members => Members.put members name (.tables (elements ++ [[]]))) key.dropLast
  return { d with root := root }

def openDotted? (d : Document) (context : Key) : Key → Option (Document × Key)
  | [] => some (d, context)
  | name :: rest => do
    let key := context ++ [name]
    let d ← (d.imply key).openTable? key
    openDotted? d key rest

mutual

/-- Works off a value under its key; `inArray` tells whether it is an item of an array there. -/
def evaluate? (d : Document) (context : Key) (name : String) (inArray : Bool) : Value → Option (Document × Node)
  | .string text => some (d, .text text)
  | .bool value => some (d, .flag value)
  | .integer => some (d, .plain)
  | .float => some (d, .plain)
  | .datetime => some (d, .plain)
  | .array items => do
    let d := d.setArray (kindKey context name) true
    return (← evaluateItems? d context name items, .list)
  | .inlineTable members => do
    let key := context ++ [name]
    let d := d.imply key
    let d ← if inArray then d.openElement? key else d.openTable? key
    let (d, held) ← evaluateMembers? d key [] members
    return (d, .table held)

def evaluateItems? (d : Document) (context : Key) (name : String) : List Value → Option Document
  | [] => some d
  | item :: rest => do
    let (d, _) ← evaluate? d context name true item
    evaluateItems? d context name rest

def evaluateMembers? (d : Document) (context : Key) (held : Members) :
    List (Key × Value) → Option (Document × Members)
  | [] => some (d, held)
  | (key, value) :: rest => do
    let (d, inner) ← d.openDotted? context key.dropLast
    let name := key.getLastD ""
    let (d, node) ← evaluate? (d.note (inner ++ [name])) inner name false value
    let d ← d.define? inner name node
    evaluateMembers? (d.setArray (kindKey inner name) value.isArray) context (held.put name node) rest

end

/-- Takes in one statement; `context` is the table that was opened last. -/
def add? (d : Document) (context : Key) : Statement → Option (Document × Key)
  | .table key => do
    let d ← d.openTable? key
    return ((d.setArray key false).note key, key)
  | .tableElement key => do
    let d ← d.openElement? key
    return ((d.setArray key false).note key, key)
  | .pair key value => do
    let (d, inner) ← d.openDotted? context key.dropLast
    let name := key.getLastD ""
    let (d, node) ← evaluate? (d.note (inner ++ [name])) inner name false value
    let d ← d.define? inner name node
    return (d.setArray (kindKey inner name) value.isArray, context)

def addAll? (d : Document) (context : Key) : List Statement → Option Document
  | [] => some d
  | statement :: rest => do
    let (d, context) ← d.add? context statement
    addAll? d context rest

def read? (bytes : List UInt8) : Option Document := do
  addAll? {} [] (← Toml.read? bytes)

end Document
end ScriptLoader.Toml
