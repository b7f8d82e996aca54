import ScriptLoader.Decimal.Fixed
import Mathlib.Data.Nat.Log
import Mathlib.Tactic.Ring

/-!
Counting with binary64 numbers. Natural numbers up to `2 ^ 53` are numbers of this kind, so that sums of them
up to there are not rounded, and a count divided by itself is one.
-/

set_option autoImplicit false
namespace ScriptLoader.Binary64

theorem roundDiv_mul (n : Nat) {d : Nat} (positive : 0 < d) : roundDiv (n * d) d = n := by
  simp only [roundDiv, Nat.mul_div_cancel n positive, Nat.mul_mod_left, Nat.mul_zero, if_pos positive]

theorem scaleTwo_natCast (numerator denominator k : Nat) :
    scaleTwo numerator denominator (k : Int) = (numerator * 2 ^ k, denominator) := by
  simp [scaleTwo]

theorem scaleTwo_neg_natCast (numerator denominator k : Nat) :
    scaleTwo numerator denominator (-(k : Int)) = (numerator, denominator * 2 ^ k) := by
  cases k with
  | zero => simp [scaleTwo]
  | succ k =>
    have below : ¬ (0 : Int) ≤ -((k + 1 : Nat) : Int) := by omega
    rw [scaleTwo, if_neg below, Int.neg_neg, Int.toNat_natCast]
    rfl

/-- The estimate of the leading power of two is right or one too high. -/
theorem log2_estimate {numerator denominator t : Nat} (positive : 0 < denominator)
    (low : denominator * 2 ^ t ≤ numerator) (high : numerator < denominator * 2 ^ (t + 1)) :
    Nat.log2 numerator = Nat.log2 denominator + t ∨ Nat.log2 numerator = Nat.log2 denominator + (t + 1) := by
  have some_denominator : denominator ≠ 0 := Nat.ne_of_gt positive
  have some_numerator : numerator ≠ 0 := by
    have : 0 < denominator * 2 ^ t := Nat.mul_pos positive (Nat.two_pow_pos t)
    omega
  have at_least : 2 ^ (Nat.log2 denominator + t) ≤ numerator := by
    rw [Nat.pow_add]
    exact Nat.le_trans (Nat.mul_le_mul_right _ (Nat.log2_self_le some_denominator)) low
  have at_most : numerator < 2 ^ (Nat.log2 denominator + t + 2) := by
    have above : denominator * 2 ^ (t + 1) ≤ 2 ^ (Nat.log2 denominator + 1) * 2 ^ (t + 1) :=
      Nat.mul_le_mul_right _ (Nat.le_of_lt Nat.lt_log2_self)
    rw [← Nat.pow_add] at above
    have same : Nat.log2 denominator + 1 + (t + 1) = Nat.log2 denominator + t + 2 := by omega
    rw [same] at above
    exact Nat.lt_of_lt_of_le high above
  have lower := (Nat.le_log2 some_numerator).mpr at_least
  have upper := (Nat.log2_lt some_numerator).mpr at_most
  omega

/-- A quotient with leading power `t` is rounded to 52 places below that power. -/
theorem ofQuotient?_of_leading {numerator denominator t : Nat} (positive : 0 < denominator)
    (low : denominator * 2 ^ t ≤ numerator) (high : numerator < denominator * 2 ^ (t + 1)) :
    ofQuotient? numerator denominator =
      let power : Int := t - 52
      let scaled := scaleTwo numerator denominator (-power)
      let mantissa := roundDiv scaled.1 scaled.2
      let rounded := if mantissa = 0x20000000000000 then (0x10000000000000, power + 1) else (mantissa, power)
      if maxPower < rounded.2 then none else some ⟨rounded.1, rounded.2⟩ := by
  have some_numerator : numerator ≠ 0 := by
    have : 0 < denominator * 2 ^ t := Nat.mul_pos positive (Nat.two_pow_pos t)
    omega
  have power : max ((t : Int) - 52) minPower = t - 52 := by
    unfold minPower
    omega
  rw [ofQuotient?, if_neg some_numerator]
  rcases log2_estimate positive low high with right | too_high
  · have estimate : (Nat.log2 numerator : Int) - Nat.log2 denominator = t := by omega
    simp only [estimate, scaleTwo_neg_natCast, if_pos low, power]
  · have estimate : (Nat.log2 numerator : Int) - Nat.log2 denominator = ((t + 1 : Nat) : Int) := by omega
    have top : ((t + 1 : Nat) : Int) - 1 = t := by omega
    simp only [estimate, scaleTwo_neg_natCast, if_neg (Nat.not_le.mpr high), top, power]

/-- A natural number that is small enough is not rounded. -/
theorem ofQuotient_mul {n b : Nat} (positive : 0 < b) (some_number : n ≠ 0) (small : n < 2 ^ 53) :
    ofQuotient (n * b) b = ⟨n * 2 ^ (52 - n.log2), (n.log2 : Int) - 52⟩ := by
  have leading : n.log2 ≤ 52 := Nat.lt_succ_iff.mp ((Nat.log2_lt some_number).mpr small)
  have low : b * 2 ^ n.log2 ≤ n * b := by
    rw [Nat.mul_comm n b]
    exact Nat.mul_le_mul_left b (Nat.log2_self_le some_number)
  have high : n * b < b * 2 ^ (n.log2 + 1) := by
    rw [Nat.mul_comm n b]
    exact Nat.mul_lt_mul_of_pos_left Nat.lt_log2_self positive
  have places : -((n.log2 : Int) - 52) = ((52 - n.log2 : Nat) : Int) := by omega
  have no_carry : n * 2 ^ (52 - n.log2) ≠ 0x20000000000000 := by
    have below : n * 2 ^ (52 - n.log2) < 2 ^ (n.log2 + 1) * 2 ^ (52 - n.log2) :=
      Nat.mul_lt_mul_of_pos_right Nat.lt_log2_self (Nat.two_pow_pos _)
    rw [← Nat.pow_add] at below
    have top : n.log2 + 1 + (52 - n.log2) = 53 := by omega
    rw [top] at below
    omega
  have finite : ¬ maxPower < (n.log2 : Int) - 52 := by
    unfold maxPower
    omega
  have exact_mantissa : roundDiv (n * b * 2 ^ (52 - n.log2)) b = n * 2 ^ (52 - n.log2) := by
    rw [Nat.mul_right_comm]
    exact roundDiv_mul _ positive
  rw [ofQuotient, ofQuotient?_of_leading positive low high]
  simp only [places, scaleTwo_natCast, exact_mantissa, if_neg no_carry, if_neg finite, Option.getD_some]

theorem ofQuotient_self {b : Nat} (positive : 0 < b) : ofQuotient b b = one := by
  have whole := ofQuotient_mul (n := 1) positive (by decide) (by decide)
  rw [Nat.one_mul] at whole
  rw [whole, one]
  exact (ofQuotient_mul (n := 1) (b := 1) (by decide) (by decide) (by decide)).symm

def Is (x : Binary64) (n : Nat) : Prop := 0 < x.toQuotient.2 ∧ x.toQuotient.1 = n * x.toQuotient.2

theorem zero_is : zero.Is 0 := by
  have at_power : ∀ k : Nat, (⟨0, -(k : Int)⟩ : Binary64).Is 0 := by
    intro k
    rw [Is, toQuotient, scaleTwo_neg_natCast, Nat.one_mul, Nat.zero_mul]
    exact ⟨Nat.two_pow_pos k, rfl⟩
  exact at_power 1074

theorem ofQuotient_is {n b : Nat} (positive : 0 < b) (small : n ≤ 2 ^ 53) : (ofQuotient (n * b) b).Is n := by
  by_cases nothing : n = 0
  · subst nothing
    rw [Nat.zero_mul]
    exact zero_is
  rcases Nat.lt_or_eq_of_le small with below | rfl
  · have places : (n.log2 : Int) - 52 = -((52 - n.log2 : Nat) : Int) := by
      have leading : n.log2 ≤ 52 := Nat.lt_succ_iff.mp ((Nat.log2_lt nothing).mpr below)
      omega
    rw [ofQuotient_mul positive nothing below, Is, toQuotient, places, scaleTwo_neg_natCast, Nat.one_mul]
    exact ⟨Nat.two_pow_pos _, rfl⟩
  · -- The largest of them needs one place more, and its last place is zero.
    have low : b * 2 ^ 53 ≤ 2 ^ 53 * b := by rw [Nat.mul_comm]
    have high : 2 ^ 53 * b < b * 2 ^ (53 + 1) := by omega
    have halved : roundDiv (2 ^ 53 * b) (b * 2 ^ 1) = 2 ^ 52 := by
      have even : 2 ^ 53 * b = 2 ^ 52 * (b * 2 ^ 1) := by ring
      rw [even]
      exact roundDiv_mul _ (by omega)
    have places : -(((53 : Nat) : Int) - 52) = -((1 : Nat) : Int) := by decide
    have rounded : ofQuotient (2 ^ 53 * b) b = ⟨2 ^ 52, 1⟩ := by
      rw [ofQuotient, ofQuotient?_of_leading positive low high]
      simp only [places, scaleTwo_neg_natCast, halved]
      decide
    rw [rounded, Is]
    decide

section
variable {x y : Binary64} {n m : Nat}

theorem Is.add (first : x.Is n) (second : y.Is m) (small : n + m ≤ 2 ^ 53) : (x.add y).Is (n + m) := by
  obtain ⟨positive, value⟩ := first
  obtain ⟨positive', value'⟩ := second
  have sum : x.add y = ofQuotient ((n + m) * (x.toQuotient.2 * y.toQuotient.2)) (x.toQuotient.2 * y.toQuotient.2) := by
    simp only [Binary64.add, value, value']
    congr 1
    ring
  rw [sum]
  exact ofQuotient_is (Nat.mul_pos positive positive') small

theorem Is.divNat_self (counted : x.Is n) (some_number : 0 < n) : x.divNat n = one := by
  obtain ⟨positive, value⟩ := counted
  simp only [divNat, value, Nat.mul_comm n]
  exact ofQuotient_self (Nat.mul_pos positive some_number)

end

theorem one_is : one.Is 1 := ofQuotient_is (n := 1) (b := 1) (by decide) (by decide)

theorem foldl_add_ones {ones : List Binary64} (all_ones : ∀ x ∈ ones, x = one) {start : Binary64} {n : Nat}
    (counted : start.Is n) (small : n + ones.length ≤ 2 ^ 53) : (ones.foldl add start).Is (n + ones.length) := by
  induction ones generalizing start n with
  | nil => exact counted
  | cons x rest ih =>
    obtain ⟨rfl, others⟩ := List.forall_mem_cons.mp all_ones
    rw [List.length_cons] at small ⊢
    have next : (start.add one).Is (n + 1) := counted.add one_is (by omega)
    have whole := ih others next (by omega)
    rw [Nat.add_assoc, Nat.add_comm 1] at whole
    exact whole

end ScriptLoader.Binary64
