import ScriptLoader.Text.Basic

/-! Decimal numbers: a sign, a natural number of digits and a power of ten. -/

set_option autoImplicit false
namespace ScriptLoader

/-- The number `digits * 10 ^ exponent`, negated when `negative`; zero may carry a sign. -/
structure Decimal where
  negative : Bool
  digits : Nat
  exponent : Int
  deriving DecidableEq, Repr, Inhabited

namespace Decimal

def ofInt (n : Int) : Decimal := ⟨decide (n < 0), n.natAbs, 0⟩

def toInt? (d : Decimal) : Option Int :=
  let magnitude : Option Nat :=
    if 0 ≤ d.exponent then some (d.digits * Nat.pow 10 d.exponent.toNat)
    else
      let scale := Nat.pow 10 (-d.exponent).toNat
      if d.digits % scale = 0 then some (d.digits / scale) else none
  magnitude.map fun n => if d.negative then -(n : Int) else n

def digitChars (d : Decimal) : List Char := Nat.toDigits 10 d.digits

def leading (d : Decimal) : Int := d.exponent + (d.digitChars.length : Int) - 1

/-- A layout of decimals: outside `[10^low, 10^high)` an exponent is written, with at least `width` digits. -/
structure Layout where
  low : Int
  high : Int
  width : Nat

def positional (d : Decimal) : String :=
  let digits := d.digitChars
  if 0 ≤ d.exponent then
    String.ofList (digits ++ List.replicate d.exponent.toNat '0')
  else
    let places := (-d.exponent).toNat
    let padded := List.replicate (places + 1 - digits.length) '0' ++ digits
    String.ofList (padded.take (padded.length - places)) ++ "." ++
      String.ofList (padded.drop (padded.length - places))

def scientific (width : Nat) (d : Decimal) : String :=
  let digits := d.digitChars
  let mantissa :=
    match digits with
    | first :: rest =>
      if rest.isEmpty then String.singleton first
      else String.singleton first ++ "." ++ String.ofList rest
    | [] => "0"
  let power := d.leading
  let magnitude := Nat.toDigits 10 power.natAbs
  mantissa ++ "e" ++ (if power < 0 then "-" else "+") ++
    String.ofList (List.replicate (width - magnitude.length) '0' ++ magnitude)

def render (layout : Layout) (d : Decimal) : String :=
  let magnitude :=
    if d.digits = 0 then "0"
    else if d.leading < layout.low ∨ layout.high ≤ d.leading then scientific layout.width d
    else positional d
  if d.negative then "-" ++ magnitude else magnitude

end Decimal
end ScriptLoader
