import ScriptLoader.Decimal.Basic

/-!
Binary64 numbers. A decimal is rounded to the nearest number `mantissa * 2 ^ power`, ties to the even
mantissa, and a binary64 number is shown by the fewest digits that round back to it, of these the
nearest.
-/

set_option autoImplicit false
namespace ScriptLoader

/-- The magnitude of a finite binary64 number, `mantissa * 2 ^ power`. -/
structure Binary64 where
  mantissa : Nat
  power : Int
  deriving DecidableEq, Repr

namespace Binary64

def minPower : Int := -1074
def maxPower : Int := 971

/-- The quotient rounded to the nearest integer, a tie to the even one. -/
def roundDiv (numerator denominator : Nat) : Nat :=
  let quotient := numerator / denominator
  let twice := 2 * (numerator % denominator)
  if twice < denominator then quotient
  else if denominator < twice then quotient + 1
  else quotient + quotient % 2

/-- `numerator / denominator` times `2 ^ power`, as a pair of natural numbers. -/
def scaleTwo (numerator denominator : Nat) (power : Int) : Nat × Nat :=
  if 0 ≤ power then (numerator * Nat.pow 2 power.toNat, denominator)
  else (numerator, denominator * Nat.pow 2 (-power).toNat)

/-- Rounds a positive quotient; `none` when it lies beyond the largest finite number. -/
def ofQuotient? (numerator denominator : Nat) : Option Binary64 :=
  if numerator = 0 then some ⟨0, minPower⟩
  else
    let estimate : Int := (Nat.log2 numerator : Int) - (Nat.log2 denominator : Int)
    let (scaledNumerator, scaledDenominator) := scaleTwo numerator denominator (-estimate)
    let top := if scaledDenominator ≤ scaledNumerator then estimate else estimate - 1
    let power := max (top - 52) minPower
    let (n, d) := scaleTwo numerator denominator (-power)
    let mantissa := roundDiv n d
    let (mantissa, power) := if mantissa = 0x20000000000000 then (0x10000000000000, power + 1) else (mantissa, power)
    if maxPower < power then none else some ⟨mantissa, power⟩

/-- The digits of a decimal whose leading digit stands beyond these powers of ten overflow or vanish. -/
def ofDecimal? (d : Decimal) : Option Binary64 :=
  if d.digits = 0 ∨ d.leading < -400 then some ⟨0, minPower⟩
  else if 400 < d.leading then none
  else if 0 ≤ d.exponent then ofQuotient? (d.digits * Nat.pow 10 d.exponent.toNat) 1
  else ofQuotient? d.digits (Nat.pow 10 (-d.exponent).toNat)

/-- The reals that round to a number, in quarters of its unit: lower end, the number, upper end. -/
def interval (b : Binary64) : Nat × Nat × Nat :=
  let value := 4 * b.mantissa
  let below := if b.mantissa = 0x10000000000000 ∧ minPower < b.power then 1 else 2
  (value - below, value, value + 2)

/-- One candidate of a decimal grid: inside the interval, whose ends count for an even mantissa. -/
def admits (even : Bool) (low high candidate : Nat) : Bool :=
  if even then low ≤ candidate && candidate ≤ high else low < candidate && candidate < high

/-- Searches grids of ever finer steps; the fuel is the number of grids left, after which the value itself is taken. -/
def searchGrids (b : Binary64) : Nat → Int → Nat × Int
  | 0, step => (b.mantissa, step)
  | fuel + 1, step =>
    let (low, value, high) := b.interval
    let quarter := b.power - 2
    let two : Nat → Nat := fun n => if 0 ≤ quarter then n * Nat.pow 2 quarter.toNat else n
    let unit : Nat :=
      (if 0 ≤ step then Nat.pow 10 step.toNat else 1) * (if quarter < 0 then Nat.pow 2 (-quarter).toNat else 1)
    let ten : Nat → Nat := fun n => if step < 0 then n * Nat.pow 10 (-step).toNat else n
    let low := ten (two low)
    let value := ten (two value)
    let high := ten (two high)
    let under := value / unit
    let even := b.mantissa % 2 == 0
    let underFits := admits even low high (under * unit)
    let overFits := admits even low high ((under + 1) * unit)
    if underFits && overFits then
      let underGap := value - under * unit
      let overGap := (under + 1) * unit - value
      if underGap < overGap ∨ (underGap = overGap ∧ under % 2 = 0) then (under, step) else (under + 1, step)
    else if underFits then (under, step)
    else if overFits then (under + 1, step)
    else searchGrids b fuel (step - 1)

def magnitude (b : Binary64) : Int :=
  let bits : Int := b.power + (Nat.log2 b.mantissa : Int) + 1
  bits * 30103 / 100000 + 1

def dropZeros : Nat → Nat → Int → Nat × Int
  | 0, digits, step => (digits, step)
  | fuel + 1, digits, step =>
    if digits ≠ 0 ∧ digits % 10 = 0 then dropZeros fuel (digits / 10) (step + 1) else (digits, step)

def shortest (negative : Bool) (b : Binary64) : Decimal :=
  if b.mantissa = 0 then ⟨negative, 0, 0⟩
  else
    let (digits, step) := searchGrids b 22 b.magnitude
    let (digits, step) := dropZeros 400 digits step
    ⟨negative, digits, step⟩

end Binary64

/-- The binary64 number nearest to a decimal, by its shortest digits; `none` beyond the finite numbers. -/
def Decimal.toBinary64? (d : Decimal) : Option Decimal :=
  (Binary64.ofDecimal? d).map (Binary64.shortest d.negative)

end ScriptLoader
