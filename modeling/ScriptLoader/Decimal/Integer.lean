import ScriptLoader.Text.Basic

/-!
Integers of 64 bits in one of four bases. A base other than ten is told by how the number begins, and
underscores may stand between digits.
-/

set_option autoImplicit false
namespace ScriptLoader.IntegerText

inductive Problem where
  | malformed
  | outOfRange
  deriving DecidableEq, Repr

def digit? (c : Char) : Option Nat :=
  if c.isDigit then some (c.toNat - '0'.toNat)
  else if c.toLower.isLower then some (c.toLower.toNat - 'a'.toNat + 10)
  else none

def baseOf : List Char → Nat × List Char
  | '0' :: mark :: first :: rest =>
    if mark.toLower = 'b' then (2, first :: rest)
    else if mark.toLower = 'o' then (8, first :: rest)
    else if mark.toLower = 'x' then (16, first :: rest)
    else (8, mark :: first :: rest)
  | '0' :: rest => (8, rest)
  | digits => (10, digits)

/-- Reads digits after those that make up `value`; underscores do not count. -/
def digits (base value : Nat) : List Char → Except Problem Nat
  | [] => .ok value
  | c :: rest =>
    if c = '_' then digits base value rest
    else match digit? c with
      | none => .error .malformed
      | some d =>
        if base ≤ d then .error .malformed
        else if 0x10000000000000000 ≤ value * base + d then .error .outOfRange
        else digits base (value * base + d) rest

/-- Whether each underscore stands between digits. The mark of a base counts as a digit. -/
def underscoresFit (text : List Char) : Bool :=
  let (base, digits) := baseOf text
  let begun := base ≠ 10
  let run := if begun then '0' :: digits else digits
  run.head? ≠ some '_' && run.getLast? ≠ some '_' && !Text.contains ['_', '_'] run

def magnitude (text : List Char) : Except Problem Nat :=
  if text.isEmpty then .error .malformed
  else
    let (base, rest) := baseOf text
    match digits base 0 rest with
    | .error e => .error e
    | .ok value => if text.contains '_' && !underscoresFit text then .error .malformed else .ok value

def parse (text : String) : Except Problem Int :=
  let within (value : Int) : Except Problem Int :=
    if value < -0x8000000000000000 ∨ 0x8000000000000000 ≤ value then .error .outOfRange else .ok value
  match text.toList with
  | '-' :: rest => (magnitude rest).bind fun n => within (-n)
  | '+' :: rest => (magnitude rest).bind fun n => within n
  | rest => (magnitude rest).bind fun n => within n

end ScriptLoader.IntegerText
