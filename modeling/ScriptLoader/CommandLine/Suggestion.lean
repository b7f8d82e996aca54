import ScriptLoader.Text.LowerCase
import ScriptLoader.Text.Utf8

/-! Names that were perhaps meant by a name that is unknown. -/

set_option autoImplicit false
namespace ScriptLoader.CommandLine

/-- The rest of a row of distances: `left` is the distance before, and the row above begins one place earlier. -/
def rowFrom (a : UInt8) (left : Nat) : List UInt8 → List Nat → List Nat
  | b :: rest, diagonal :: above :: row =>
    let here := if a = b then diagonal else 1 + min left (min diagonal above)
    here :: rowFrom a here rest (above :: row)
  | _, _ => []

def nextRow (t : List UInt8) (row : List Nat) (a : UInt8) : List Nat :=
  let first := row.headD 0 + 1
  first :: rowFrom a first t row

def distance (s t : List UInt8) : Nat := ((s.foldl (nextRow t) (List.range (t.length + 1))).getLast?).getD 0

/-- A name is suggested when it is near, or when it begins as the unknown one. -/
def resembles (written name : String) : Bool :=
  let written := String.ofList (written.toList.map Text.lowerChar)
  distance (Text.Utf8.encode written) (Text.Utf8.encode name) ≤ 2 || written.toList.isPrefixOf name.toList

end ScriptLoader.CommandLine
