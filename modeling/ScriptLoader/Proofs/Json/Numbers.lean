import ScriptLoader.Json.Reader
import ScriptLoader.Json.Writer
import Mathlib.Algebra.Group.Nat.Defs
import Mathlib.Data.List.TakeDrop
import Mathlib.Data.Nat.Init

/-!
Numbers in their texts. A number reads back with its value, whether it is written with an exponent, with a
point or with zeros at the end; only in the last form are its digits others, as the zeros are among them.
-/

set_option autoImplicit false
namespace ScriptLoader

def Decimal.asRead (d : Decimal) : Decimal :=
  if 0 ≤ d.exponent ∧ d.leading < Json.numberLayout.high ∨ d.digits = 0 then
    ⟨d.negative, d.digits * 10 ^ d.exponent.toNat, 0⟩
  else d

namespace Json

/-! ## Digits -/

theorem natural_eq (s : List Char) : natural s = Nat.ofDigitChars 10 s 0 := by
  simp only [natural, Nat.ofDigitChars, Nat.mul_comm]

theorem natural_toDigits (n : Nat) : natural (Nat.toDigits 10 n) = n := by
  rw [natural_eq, Nat.ofDigitChars_ten_toDigits]

theorem natural_zeros_append (count : Nat) (s : List Char) : natural (List.replicate count '0' ++ s) = natural s := by
  simp only [natural_eq, Nat.ofDigitChars_append, Nat.ofDigitChars_replicate_zero, Nat.mul_zero]

theorem natural_append_zeros (s : List Char) (count : Nat) :
    natural (s ++ List.replicate count '0') = natural s * 10 ^ count := by
  rw [natural_eq, natural_eq, Nat.ofDigitChars_append, Nat.ofDigitChars_replicate_zero, Nat.mul_comm]

def AllDigits (s : List Char) : Prop := ∀ c ∈ s, c.isDigit = true

theorem allDigits_toDigits (n : Nat) : AllDigits (Nat.toDigits 10 n) :=
  fun _ mem => Nat.isDigit_of_mem_toDigits (by decide) (by decide) mem

theorem allDigits_zeros (count : Nat) : AllDigits (List.replicate count '0') := by
  intro c mem
  rw [(List.mem_replicate.mp mem).2]
  rfl

theorem AllDigits.append {s t : List Char} (first : AllDigits s) (second : AllDigits t) : AllDigits (s ++ t) :=
  List.forall_mem_append.mpr ⟨first, second⟩

def NoDigitNext (rest : List Char) : Prop := ∀ c ∈ rest.head?, c.isDigit = false

theorem digits_append {s rest : List Char} (all : AllDigits s) (ends : NoDigitNext rest) :
    digits (s ++ rest) = (s, rest) := by
  have none_more : rest.takeWhile Char.isDigit = [] ∧ rest.dropWhile Char.isDigit = rest := by
    cases rest with
    | nil => exact ⟨rfl, rfl⟩
    | cons c rest => simp [ends c rfl]
  rw [digits, List.span_eq_takeWhile_dropWhile, List.takeWhile_append_of_pos all, List.dropWhile_append_of_pos all,
    none_more.1, none_more.2, List.append_nil]

/-- Only zero is written with a zero in front. -/
theorem head?_toDigits {n : Nat} (some_digit : n ≠ 0) : (Nat.toDigits 10 n).head? ≠ some '0' := by
  have small : ∀ k : Fin 10, k.val ≠ 0 → k.val.digitChar ≠ '0' := by decide
  induction n using Nat.strong_induction_on with
  | _ n ih =>
    by_cases single : n < 10
    · rw [Nat.toDigits_of_lt_base single, List.head?_cons]
      exact fun same => small ⟨n, single⟩ some_digit (Option.some.inj same)
    · have shorter := ih (n / 10) (by omega) (by omega)
      rw [Nat.toDigits_of_base_le (by decide) (by omega), List.head?_append]
      rwa [Option.or_of_isSome (List.isSome_head?.mpr Nat.toDigits_ne_nil)]

/-! ## The parts of a number -/

structure Whole (s : List Char) : Prop where
  ne_nil : s ≠ []
  digits : AllDigits s
  no_zero : s.head? = some '0' → s = ['0']

theorem whole_zero : Whole ['0'] := ⟨by decide, List.forall_mem_singleton.mpr rfl, fun _ => rfl⟩

theorem integerPart?_append {s rest : List Char} (whole : Whole s) (ends : NoDigitNext rest) :
    integerPart? (s ++ rest) = some (s, rest) := by
  obtain ⟨some_digit, all, no_zero⟩ := whole
  rw [integerPart?, digits_append all ends]
  match s with
  | [] => exact absurd rfl some_digit
  | [_] => simp
  | c :: d :: more =>
    have other : c ≠ '0' := by
      rintro rfl
      cases no_zero rfl
    simp [other]

theorem fractionPart?_none {rest : List Char} (no_point : rest.head? ≠ some '.') :
    fractionPart? rest = some ([], rest) := by
  cases rest with
  | nil => rfl
  | cons c rest =>
    have other : c ≠ '.' := by
      rintro rfl
      exact no_point rfl
    simp [fractionPart?, other]

theorem fractionPart?_append {s rest : List Char} (some_digit : s ≠ []) (all : AllDigits s) (ends : NoDigitNext rest) :
    fractionPart? ('.' :: s ++ rest) = some (s, rest) := by
  rw [List.cons_append, fractionPart?, digits_append all ends]
  cases s with
  | nil => exact absurd rfl some_digit
  | cons c s => rfl

structure EndsNumber (rest : List Char) : Prop where
  no_digit : NoDigitNext rest
  no_point : rest.head? ≠ some '.'
  no_exponent : ∀ c ∈ rest.head?, c ≠ 'e' ∧ c ≠ 'E'

theorem endsNumber_nil : EndsNumber [] where
  no_digit _ next := by cases next
  no_point next := by cases next
  no_exponent _ next := by cases next

theorem exponentPart?_none {rest : List Char} (ends : EndsNumber rest) : exponentPart? rest = some (0, rest) := by
  cases rest with
  | nil => rfl
  | cons c rest =>
    obtain ⟨small, capital⟩ := ends.no_exponent c rfl
    simp [exponentPart?, small, capital]

def exponentText (width : Nat) (power : Int) : List Char :=
  let magnitude := Nat.toDigits 10 power.natAbs
  'e' :: (if power < 0 then '-' else '+') :: (List.replicate (width - magnitude.length) '0' ++ magnitude)

theorem exponentPart?_exponentText (width : Nat) (power : Int) {rest : List Char} (ends : EndsNumber rest) :
    exponentPart? (exponentText width power ++ rest) = some (power, rest) := by
  have all : AllDigits (List.replicate (width - (Nat.toDigits 10 power.natAbs).length) '0' ++
      Nat.toDigits 10 power.natAbs) :=
    (allDigits_zeros _).append (allDigits_toDigits _)
  have value := natural_zeros_append (width - (Nat.toDigits 10 power.natAbs).length) (Nat.toDigits 10 power.natAbs)
  rw [natural_toDigits] at value
  have read (negative : Bool) : exponentDigits? negative
      (List.replicate (width - (Nat.toDigits 10 power.natAbs).length) '0' ++ (Nat.toDigits 10 power.natAbs ++ rest)) =
        some (if negative then -(power.natAbs : Int) else power.natAbs, rest) := by
    rw [exponentDigits?, ← List.append_assoc, digits_append all ends.no_digit]
    split
    next same =>
      have nothing := (Prod.mk.inj same).1
      exact absurd (List.append_eq_nil_iff.mp nothing).2 Nat.toDigits_ne_nil
    next same =>
      obtain ⟨rfl, rfl⟩ := Prod.mk.inj same
      rw [value]
  rw [exponentText, List.cons_append, List.cons_append, List.append_assoc]
  by_cases below : power < 0
  · have sign : -(power.natAbs : Int) = power := by omega
    rw [if_pos below]
    exact (read true).trans (by rw [if_pos rfl, sign])
  · have sign : (power.natAbs : Int) = power := by omega
    rw [if_neg below]
    exact (read false).trans (by rw [if_neg Bool.false_ne_true, sign])

def signText (negative : Bool) : List Char := if negative then ['-'] else []

theorem number?_parts {whole fraction rest : List Char} {exponent : Int} (negative : Bool) (point tail : List Char)
    (wholes : Whole whole) (ends : NoDigitNext (point ++ tail))
    (fraction_read : fractionPart? (point ++ tail) = some (fraction, tail))
    (exponent_read : exponentPart? tail = some (exponent, rest)) :
    number? (signText negative ++ (whole ++ (point ++ tail))) =
      some (⟨negative, natural (whole ++ fraction), exponent - fraction.length⟩, rest) := by
  have unsigned : ∀ more, whole ++ (point ++ tail) ≠ '-' :: more := by
    intro more same
    obtain ⟨c, others, rfl⟩ := List.exists_cons_of_ne_nil wholes.ne_nil
    have digit := wholes.digits c List.mem_cons_self
    rw [(List.cons.inj same).1] at digit
    cases digit
  cases negative with
  | true =>
    simp [number?, signText, integerPart?_append wholes ends, fraction_read, exponent_read]
  | false =>
    rw [signText, if_neg (by decide), List.nil_append, number?.eq_2 _ unsigned]
    simp [integerPart?_append wholes ends, fraction_read, exponent_read]

/-! ## Decimals -/

section
variable {d : Decimal}

theorem whole_digitChars (some_digit : d.digits ≠ 0) (zeros : Nat) :
    Whole (d.digitChars ++ List.replicate zeros '0') where
  ne_nil same := Nat.toDigits_ne_nil (List.append_eq_nil_iff.mp same).1
  digits := (allDigits_toDigits _).append (allDigits_zeros _)
  no_zero first := by
    rw [Decimal.digitChars, List.head?_append, Option.or_of_isSome (List.isSome_head?.mpr Nat.toDigits_ne_nil)] at first
    exact absurd first (head?_toDigits some_digit)

theorem number?_point (some_digit : d.digits ≠ 0) (below : d.exponent < 0) {rest : List Char} (ends : EndsNumber rest) :
    number? (signText d.negative ++ d.positional.toList ++ rest) = some (d, rest) := by
  obtain ⟨places, exponent⟩ : ∃ places : Nat, d.exponent = -((places + 1 : Nat) : Int) :=
    ⟨(-d.exponent).toNat - 1, by omega⟩
  -- Zeros stand in front until there is a digit before the point; the point comes `places + 1` digits before the end.
  let padded := List.replicate (places + 2 - d.digitChars.length) '0' ++ d.digitChars
  have count : padded.length = max (places + 2) d.digitChars.length := by
    simp only [padded, List.length_append, List.length_replicate]
    omega
  have all : AllDigits padded := (allDigits_zeros _).append (allDigits_toDigits _)
  let whole := padded.take (padded.length - (places + 1))
  let fraction := padded.drop (padded.length - (places + 1))
  have text : d.positional.toList = whole ++ '.' :: fraction := by
    have places_eq : (-d.exponent).toNat = places + 1 := by omega
    simp only [Decimal.positional, if_neg (Int.not_le.mpr below), places_eq]
    simp [whole, fraction, padded]
  have wholes : Whole whole := by
    refine ⟨?_, fun c mem => all c (List.mem_of_mem_take mem), ?_⟩
    · intro same
      have short := congrArg List.length same
      rw [List.length_take, List.length_nil] at short
      omega
    · -- A zero in front is one of those that were put there, and then there is no other digit before the point.
      intro first
      by_cases long : d.digitChars.length < places + 2
      · have single : whole.length = 1 := by
          rw [List.length_take]
          omega
        obtain ⟨c, only⟩ := List.length_eq_one_iff.mp single
        rw [only] at first ⊢
        rw [Option.some.inj first]
      · have plain : padded = d.digitChars := by
          simp [padded, Nat.sub_eq_zero_of_le (Nat.le_of_not_lt long)]
        rw [List.head?_take, plain] at first
        split at first
        · cases first
        · exact absurd first (head?_toDigits some_digit)
  have length_fraction : fraction.length = places + 1 := by
    rw [List.length_drop]
    omega
  have read := number?_parts d.negative ('.' :: fraction) rest wholes (fun c same => by cases same; rfl)
    (fractionPart?_append (List.ne_nil_of_length_eq_add_one length_fraction)
      (fun c mem => all c (List.mem_of_mem_drop mem))
      ends.no_digit)
    (exponentPart?_none ends)
  have value : natural (whole ++ fraction) = d.digits := by
    rw [List.take_append_drop, natural_zeros_append, Decimal.digitChars, natural_toDigits]
  rw [value, length_fraction, Int.zero_sub, ← exponent] at read
  simpa [text] using read

theorem number?_scientific (width : Nat) {rest : List Char} (ends : EndsNumber rest) :
    number? (signText d.negative ++ (d.scientific width).toList ++ rest) = some (d, rest) := by
  obtain ⟨first, others, chars⟩ := List.exists_cons_of_ne_nil (Nat.toDigits_ne_nil : Nat.toDigits 10 d.digits ≠ [])
  have all : AllDigits (first :: others) := by
    rw [← chars]
    exact allDigits_toDigits _
  have value : natural (first :: others) = d.digits := by rw [← chars, natural_toDigits]
  have power : d.leading - others.length = d.exponent := by
    rw [Decimal.leading, Decimal.digitChars, chars, List.length_cons]
    omega
  have wholes : Whole [first] := by
    refine ⟨by simp, fun c mem => all c (List.mem_cons.mpr (.inl (List.mem_singleton.mp mem))), ?_⟩
    intro zero
    rw [Option.some.inj zero]
  have tail_ends : NoDigitNext (exponentText width d.leading ++ rest) := by
    intro c same
    cases same
    rfl
  have exponent_read := exponentPart?_exponentText width d.leading ends
  -- A single digit is written without a point.
  by_cases alone : others = []
  · have text : (d.scientific width).toList = [first] ++ exponentText width d.leading := by
      simp [Decimal.scientific, exponentText, Decimal.digitChars, chars, alone]
      split <;> rfl
    have no_point : (exponentText width d.leading ++ rest).head? ≠ some '.' := by
      rw [exponentText, List.cons_append, List.head?_cons]
      decide
    have read :=
      number?_parts d.negative [] (exponentText width d.leading ++ rest) wholes tail_ends
        (fractionPart?_none no_point) exponent_read
    subst alone
    rw [List.append_nil, value, power] at read
    simpa [text] using read
  · have text : (d.scientific width).toList = [first] ++ ('.' :: others ++ exponentText width d.leading) := by
      simp [Decimal.scientific, exponentText, Decimal.digitChars, chars, alone]
      split <;> rfl
    have read := number?_parts d.negative ('.' :: others) _ wholes (fun c same => by cases same; rfl)
      (fractionPart?_append alone (fun c mem => all c (List.mem_cons_of_mem _ mem)) tail_ends) exponent_read
    rw [List.singleton_append (l := others), value, power] at read
    simpa [text] using read

theorem number?_render (d : Decimal) {rest : List Char} (ends : EndsNumber rest) :
    number? ((d.render numberLayout).toList ++ rest) = some (d.asRead, rest) := by
  have text : (d.render numberLayout).toList = signText d.negative ++ (if d.digits = 0 then "0"
      else if d.leading < numberLayout.low ∨ numberLayout.high ≤ d.leading then d.scientific numberLayout.width
      else d.positional).toList := by
    cases sign : d.negative <;> simp [Decimal.render, signText, sign]
  rw [text]
  -- The cases are the layouts of `render`. In the last one zeros are appended, which are then among the digits.
  by_cases zero : d.digits = 0
  · have read :=
      number?_parts d.negative [] rest whole_zero ends.no_digit (fractionPart?_none ends.no_point)
        (exponentPart?_none ends)
    rw [if_pos zero, Decimal.asRead, if_pos (.inr zero), zero, Nat.zero_mul]
    simpa [natural] using read
  rw [if_neg zero]
  by_cases far : d.leading < numberLayout.low ∨ numberLayout.high ≤ d.leading
  · have far_off : ¬(0 ≤ d.exponent ∧ d.leading < numberLayout.high ∨ d.digits = 0) := by
      have some_digit : 0 < d.digitChars.length := Nat.length_toDigits_pos
      simp only [Decimal.leading, numberLayout] at far ⊢
      omega
    rw [if_pos far, Decimal.asRead, if_neg far_off]
    exact number?_scientific _ ends
  rw [if_neg far]
  by_cases below : d.exponent < 0
  · rw [Decimal.asRead, if_neg (by omega)]
    exact number?_point zero below ends
  · have near : 0 ≤ d.exponent ∧ d.leading < numberLayout.high := by omega
    have text : d.positional.toList = d.digitChars ++ List.replicate d.exponent.toNat '0' := by
      simp [Decimal.positional, near.1]
    have read := number?_parts d.negative [] rest (whole_digitChars zero d.exponent.toNat) ends.no_digit
      (fractionPart?_none ends.no_point) (exponentPart?_none ends)
    rw [List.append_nil, natural_append_zeros, Decimal.digitChars, natural_toDigits] at read
    rw [Decimal.asRead, if_pos (.inl near), text]
    simpa [Decimal.digitChars] using read

theorem starts_render (d : Decimal) :
    ∃ c more, (d.render numberLayout).toList = c :: more ∧ (c = '-' ∨ c.isDigit = true) := by
  have read := number?_render d endsNumber_nil
  rw [List.append_nil] at read
  match text : (d.render numberLayout).toList with
  | [] =>
    rw [text] at read
    cases read
  | c :: more =>
    refine ⟨c, more, rfl, ?_⟩
    by_contra other
    obtain ⟨no_sign, no_digit⟩ := not_or.mp other
    have none_read : integerPart? (c :: more) = none := by
      simp [integerPart?, digits, List.span_eq_takeWhile_dropWhile, no_digit]
    rw [text, number?.eq_2 _ fun _ same => no_sign (List.cons.inj same).1, none_read] at read
    cases read

end
end Json
end ScriptLoader
