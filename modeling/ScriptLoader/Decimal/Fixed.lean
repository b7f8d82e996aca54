import ScriptLoader.Decimal.Shortest

/-! Numbers with a fixed number of places. -/

set_option autoImplicit false
namespace ScriptLoader

/-- A natural number of units of the last place, with a point before the last `places` digits. -/
def fixedPlaces (places units : Nat) : String :=
  let digits := Nat.toDigits 10 units
  let padded := List.replicate (places + 1 - digits.length) '0' ++ digits
  if places = 0 then String.ofList padded
  else String.ofList (padded.take (padded.length - places)) ++ "." ++
    String.ofList (padded.drop (padded.length - places))

namespace Binary64

def toQuotient (b : Binary64) : Nat × Nat := scaleTwo b.mantissa 1 b.power

def fixed (places : Nat) (b : Binary64) : String :=
  let (numerator, denominator) := b.toQuotient
  fixedPlaces places (roundDiv (numerator * Nat.pow 10 places) denominator)

def zero : Binary64 := ⟨0, minPower⟩

/-- The number nearest to a quotient; zero for one that is too large, which no sum of a few numbers is. -/
def ofQuotient (numerator denominator : Nat) : Binary64 := (ofQuotient? numerator denominator).getD zero

def one : Binary64 := ofQuotient 1 1

def divNat (b : Binary64) (divisor : Nat) : Binary64 :=
  let (numerator, denominator) := b.toQuotient
  ofQuotient numerator (denominator * divisor)

def add (a b : Binary64) : Binary64 :=
  let (m, d) := a.toQuotient
  let (n, e) := b.toQuotient
  ofQuotient (m * e + n * d) (d * e)

end Binary64
end ScriptLoader
