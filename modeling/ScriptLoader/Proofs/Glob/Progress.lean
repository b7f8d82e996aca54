import ScriptLoader.Glob
import Mathlib.Data.List.Basic
import Mathlib.Tactic.Ring

/-!
Matching comes to an end. A match holds on to three places in the name: the one up to which the last double
star has taken, the one from which the last star can still go on, and the one it has come to. None of them
ever goes back, and while all of them stay the match moves on in the pattern. So the number of steps that a
match is given is enough, and more of them do not change its answer.
-/

set_option autoImplicit false
namespace ScriptLoader.Glob

/-! ## The pieces of a pattern are shorter than the pattern -/

theorem length_classItems (c : Char) (fuel : Nat) (last : Option Char) (s : List Char) :
    (classItems c fuel last s).2.length ≤ s.length := by
  fun_induction classItems c fuel last s <;> grind

/-- Where the pattern goes on once a character was compared with a class. -/
def ClassOutcome.rest? : ClassOutcome → Option (List Char)
  | .malformed => none
  | .outside rest => some rest
  | .inside rest => some rest

theorem length_matchClass {s rest : List Char} {c : Char} (onward : (matchClass s c).rest? = some rest) :
    rest.length ≤ s.length := by
  have bound := length_classBody s
  unfold matchClass at onward
  dsimp only at onward
  generalize classBody s = body at bound onward
  split at onward
  · cases onward
  · cases onward
  · have items := length_classItems c (body.length + 1) none body
    split at onward
    · split at onward
      · cases onward
      · cases onward
        omega
    · split at onward
      · rename_i after
        cases onward
        have shorter := length_afterClass? after
        omega
      · cases onward

theorem closingBrace?_lt {depth index close : Nat} {s : List Char} (found : closingBrace? depth index s = some close) :
    close < index + s.length := by
  fun_induction closingBrace? depth index s <;> grind

theorem length_alternatives (depth : Int) (s : List Char) :
    ∀ choice ∈ alternatives depth s, choice.length ≤ s.length := by
  fun_induction alternatives depth s <;> grind

/-- A choice in the place of its group makes the pattern shorter. -/
theorem length_choice {rest choice : List Char} {close : Nat} (found : closingBrace? 0 0 rest = some close)
    (mem : choice ∈ alternatives 0 (rest.take close)) : (choice ++ rest.drop (close + 1)).length < rest.length := by
  have inside := closingBrace?_lt found
  have short := length_alternatives 0 (rest.take close) choice mem
  simp only [List.length_append, List.length_drop, List.length_take] at short ⊢
  omega

theorem afterSeparator?_bounds {index next : Nat} {s : List Char} (found : afterSeparator? index s = some next) :
    index < next ∧ next ≤ index + s.length := by
  induction s generalizing index with
  | nil => cases found
  | cons c rest ih =>
    rw [afterSeparator?] at found
    split at found
    · cases found
      simp only [List.length_cons]
      omega
    · have bounds := ih found
      simp only [List.length_cons]
      omega

/-! ## The three places of a match -/

/-- The text from a place on begins with a character of the component there. -/
def goesOn (name : List Char) (place : Nat) : Bool :=
  match name.drop place with
  | c :: _ => decide (c ≠ separator)
  | [] => false

namespace State
variable (name : List Char) (s : State)

/-- The place from which the last star can still go on; the one reached when no star can. -/
def starPlace : Nat :=
  match s.star with
  | some mark => if goesOn name mark.name then mark.name else s.name
  | none => s.name

/-- The place up to which the last double star has taken. -/
def doubleStarPlace : Nat :=
  match s.doubleStar with
  | some mark => mark.name
  | none => 0

/-- The places stand in this order. -/
structure Ordered : Prop where
  doubleStar_le : s.doubleStarPlace ≤ s.starPlace name
  star_le : s.starPlace name ≤ s.name

end State

def left (pattern name : List Char) (s : State) : Nat :=
  (name.length + 1 - s.doubleStarPlace) * ((name.length + 2) * (pattern.length + 2)) +
    (name.length + 1 - s.starPlace name) * (pattern.length + 2) + (pattern.length + 1 - s.pattern)

section
variable {pattern name : List Char} {s next : State}

theorem left_lt_of_pattern (inside : s.pattern ≤ pattern.length) (doubleStar : s.doubleStarPlace ≤ next.doubleStarPlace)
    (star : s.starPlace name ≤ next.starPlace name) (further : s.pattern < next.pattern) :
    left pattern name next < left pattern name s := by
  have first : (name.length + 1 - next.doubleStarPlace) * ((name.length + 2) * (pattern.length + 2)) ≤
      (name.length + 1 - s.doubleStarPlace) * ((name.length + 2) * (pattern.length + 2)) :=
    Nat.mul_le_mul_right _ (by omega)
  have second : (name.length + 1 - next.starPlace name) * (pattern.length + 2) ≤
      (name.length + 1 - s.starPlace name) * (pattern.length + 2) := Nat.mul_le_mul_right _ (by omega)
  unfold left
  omega

theorem left_lt_of_star (doubleStar : s.doubleStarPlace ≤ next.doubleStarPlace)
    (inside : s.starPlace name ≤ name.length) (further : s.starPlace name < next.starPlace name) :
    left pattern name next < left pattern name s := by
  have first : (name.length + 1 - next.doubleStarPlace) * ((name.length + 2) * (pattern.length + 2)) ≤
      (name.length + 1 - s.doubleStarPlace) * ((name.length + 2) * (pattern.length + 2)) :=
    Nat.mul_le_mul_right _ (by omega)
  have second : (name.length + 1 - next.starPlace name + 1) * (pattern.length + 2) ≤
      (name.length + 1 - s.starPlace name) * (pattern.length + 2) := Nat.mul_le_mul_right _ (by omega)
  rw [Nat.succ_mul] at second
  unfold left
  omega

theorem left_lt_of_doubleStar (inside : s.doubleStarPlace ≤ name.length)
    (further : s.doubleStarPlace < next.doubleStarPlace) : left pattern name next < left pattern name s := by
  have first : (name.length + 1 - next.doubleStarPlace + 1) * ((name.length + 2) * (pattern.length + 2)) ≤
      (name.length + 1 - s.doubleStarPlace) * ((name.length + 2) * (pattern.length + 2)) :=
    Nat.mul_le_mul_right _ (by omega)
  have second : (name.length + 1 - next.starPlace name) * (pattern.length + 2) ≤
      (name.length + 1) * (pattern.length + 2) :=
    Nat.mul_le_mul_right _ (by omega)
  have third : (name.length + 2) * (pattern.length + 2) =
      (name.length + 1) * (pattern.length + 2) + (pattern.length + 2) := by
    ring
  rw [Nat.succ_mul] at first
  unfold left
  omega

theorem left_lt_of_shorter {shorter : List Char} (less : shorter.length < pattern.length)
    (inside : s.pattern ≤ pattern.length) {s' : State} (same : s'.pattern = s.pattern)
    (doubleStar : s'.doubleStarPlace = s.doubleStarPlace) (star : s'.starPlace name = s.starPlace name) :
    left shorter name s' < left pattern name s := by
  have width : shorter.length + 2 ≤ pattern.length + 2 := by omega
  have first : (name.length + 1 - s.doubleStarPlace) * ((name.length + 2) * (shorter.length + 2)) ≤
      (name.length + 1 - s.doubleStarPlace) * ((name.length + 2) * (pattern.length + 2)) :=
    Nat.mul_le_mul_left _ (Nat.mul_le_mul_left _ width)
  have second : (name.length + 1 - s.starPlace name) * (shorter.length + 2) ≤
      (name.length + 1 - s.starPlace name) * (pattern.length + 2) := Nat.mul_le_mul_left _ width
  unfold left
  rw [same, doubleStar, star]
  omega

/-! ## What a step can do -/

/-- What moving on in the pattern can do with the rest of the state. -/
inductive Onward (s next : State) : Prop where
  | taken : next.name = s.name + 1 → next.star = s.star → next.doubleStar = s.doubleStar → Onward s next
  | star : next.name = s.name → next.star = some ⟨next.pattern, s.name⟩ → next.doubleStar = s.doubleStar → Onward s next
  | doubleStar : next.name = s.name → next.star = none → next.doubleStar = some ⟨next.pattern, s.name⟩ → Onward s next

theorem step_eq_onward {c : Char} (stepped : step pattern s c = .onward next) :
    s.pattern < pattern.length ∧ s.pattern < next.pattern ∧ Onward s next := by
  have size : (pattern.drop s.pattern).length = pattern.length - s.pattern := List.length_drop
  unfold step at stepped
  split at stepped
  · cases stepped
  · rename_i rest whole
    rw [whole] at size
    simp only [List.length_cons] at size
    split at stepped
    · cases stepped
    · split at stepped
      · cases stepped
        exact ⟨by omega, Nat.lt_add_of_pos_right (by omega), .doubleStar rfl rfl rfl⟩
      · cases stepped
        exact ⟨by omega, Nat.lt_add_of_pos_right (by omega), .star rfl rfl rfl⟩
  · rename_i whole
    rw [whole] at size
    simp only [List.length_cons] at size
    cases stepped
    exact ⟨by omega, Nat.lt_succ_self _, .star rfl rfl rfl⟩
  · rename_i whole
    rw [whole] at size
    simp only [List.length_cons] at size
    split at stepped
    · cases stepped
    · cases stepped
      exact ⟨by omega, Nat.lt_succ_self _, .taken rfl rfl rfl⟩
  · rename_i rest whole
    rw [whole] at size
    simp only [List.length_cons] at size
    split at stepped
    · cases stepped
    · cases stepped
    · rename_i after inside
      have shorter := length_matchClass (congrArg ClassOutcome.rest? inside)
      cases stepped
      exact ⟨by omega, by dsimp only; omega, .taken rfl rfl rfl⟩
  · split at stepped <;> cases stepped
  · cases stepped
  · rename_i whole
    rw [whole] at size
    simp only [List.length_cons] at size
    split at stepped
    · cases stepped
      exact ⟨by omega, Nat.lt_add_of_pos_right (by omega), .taken rfl rfl rfl⟩
    · cases stepped
  · rename_i whole
    rw [whole] at size
    simp only [List.length_cons] at size
    split at stepped
    · cases stepped
      exact ⟨by omega, Nat.lt_succ_self _, .taken rfl rfl rfl⟩
    · cases stepped

theorem step_eq_choice {c : Char} {patterns : List (List Char)} (stepped : step pattern s c = .choice patterns) :
    s.pattern < pattern.length ∧ ∀ shorter ∈ patterns, shorter.length < pattern.length := by
  have size : (pattern.drop s.pattern).length = pattern.length - s.pattern := List.length_drop
  unfold step at stepped
  split at stepped
  case h_6 rest whole =>
    rw [whole] at size
    simp only [List.length_cons] at size
    split at stepped
    · cases stepped
    · rename_i close found
      cases stepped
      refine ⟨by omega, fun shorter mem => ?_⟩
      obtain ⟨choice, listed, rfl⟩ := List.mem_map.mp mem
      have less := length_choice found listed
      simp only [List.length_append, List.length_take] at less ⊢
      omega
  all_goals repeat' split at stepped
  all_goals cases stepped

/-- Back at a star, which takes one more character. -/
def State.backToStar (s : State) (mark : Mark) : State :=
  { s with
    pattern := mark.pattern, name := mark.name + 1, star := some ⟨mark.pattern, mark.name + 1⟩, atStart := false }

/-- Back at a double star, which takes all up to a place. -/
def State.backToDoubleStar (s : State) (mark : Mark) (place : Nat) : State :=
  { pattern := mark.pattern, name := place, star := s.star, doubleStar := some ⟨mark.pattern, place⟩, atStart := true }

/-- Back at the double star, behind the next separator. -/
def again? (name : List Char) (s : State) : Option State :=
  s.doubleStar.bind fun mark => (afterSeparator? mark.name (name.drop mark.name)).map (s.backToDoubleStar mark)

theorem back?_eq (name : List Char) (s : State) :
    back? name s =
      match s.star with
      | some mark => if goesOn name mark.name then some (s.backToStar mark) else again? name s
      | none => again? name s := by
  have doubleStar : (do
      let mark ← s.doubleStar
      let place ← afterSeparator? mark.name (name.drop mark.name)
      return s.backToDoubleStar mark place) = again? name s := by
    unfold again?
    cases s.doubleStar with
    | none => rfl
    | some mark =>
      simp only [Option.bind_eq_bind, Option.bind_some]
      cases afterSeparator? mark.name (name.drop mark.name) <;> rfl
  unfold back?
  rw [← doubleStar]
  dsimp only
  cases set : s.star with
  | none => simp only [State.backToDoubleStar, set]
  | some mark =>
    simp only [State.backToDoubleStar, State.backToStar, goesOn, set]
    cases name.drop mark.name with
    | nil => rfl
    | cons c rest => by_cases stuck : c = separator <;> simp [stuck]

def State.Stuck (name : List Char) (s : State) : Prop := ∀ mark, s.star = some mark → goesOn name mark.name = false

/-- Going back is to a star that can go on, or else to the double star, behind the next separator. -/
theorem back?_eq_some (back : back? name s = some next) :
    (∃ mark, s.star = some mark ∧ goesOn name mark.name = true ∧ next = s.backToStar mark) ∨
    (s.Stuck name ∧ ∃ mark place, s.doubleStar = some mark ∧
      afterSeparator? mark.name (name.drop mark.name) = some place ∧ next = s.backToDoubleStar mark place) := by
  have retried : again? name s = some next → ∃ mark place, s.doubleStar = some mark ∧
      afterSeparator? mark.name (name.drop mark.name) = some place ∧ next = s.backToDoubleStar mark place := by
    intro reached
    obtain ⟨mark, set, reached⟩ := Option.bind_eq_some_iff.mp reached
    obtain ⟨place, after, same⟩ := Option.map_eq_some_iff.mp reached
    exact ⟨mark, place, set, after, same.symm⟩
  rw [back?_eq] at back
  cases set : s.star with
  | none =>
    rw [set] at back
    exact .inr ⟨by simp [State.Stuck, set], retried back⟩
  | some mark =>
    simp only [set] at back
    split at back
    · rename_i free
      cases back
      exact .inl ⟨mark, rfl, free, rfl⟩
    · rename_i stuck
      exact .inr ⟨by simpa [State.Stuck, set] using stuck, retried back⟩

theorem State.Stuck.starPlace (stuck : s.Stuck name) : s.starPlace name = s.name := by
  unfold State.starPlace
  split
  · rename_i mark set
    simp [stuck mark set]
  · rfl

theorem starPlace_of_mark {mark : Mark} (set : s.star = some mark) (same : mark.name = s.name) :
    s.starPlace name = s.name := by
  simp [State.starPlace, set, same]

/-- Moving on in the pattern keeps the order of the places and leaves less to do. -/
theorem Onward.progress (onward : Onward s next) (ordered : s.Ordered name) (inside : s.pattern < pattern.length)
    (further : s.pattern < next.pattern) : next.Ordered name ∧ left pattern name next < left pattern name s := by
  have first := ordered.doubleStar_le
  have second := ordered.star_le
  have places : s.doubleStarPlace ≤ next.doubleStarPlace ∧ s.starPlace name ≤ next.starPlace name ∧
      next.Ordered name := by
    cases onward with
    | taken moved star doubleStar =>
      have same : next.doubleStarPlace = s.doubleStarPlace := by simp [State.doubleStarPlace, doubleStar]
      -- A star that can go on keeps its place; one that cannot is where the match is.
      have onward_star : s.starPlace name ≤ next.starPlace name ∧ next.starPlace name ≤ next.name := by
        simp only [State.starPlace, star, moved] at second ⊢
        split at second
        · split at second
          · rename_i free
            simp only [free, if_true]
            omega
          · rename_i stuck
            simp only [stuck, Bool.false_eq_true, if_false]
            omega
        · omega
      exact ⟨same.ge, onward_star.1, by omega, onward_star.2⟩
    | star stays star doubleStar =>
      have same : next.doubleStarPlace = s.doubleStarPlace := by simp [State.doubleStarPlace, doubleStar]
      have there : next.starPlace name = next.name := starPlace_of_mark star stays.symm
      exact ⟨same.ge, by omega, by omega, there.le⟩
    | doubleStar stays star doubleStar =>
      have moved : next.doubleStarPlace = s.name := by simp [State.doubleStarPlace, doubleStar]
      have there : next.starPlace name = next.name := by simp [State.starPlace, star]
      exact ⟨by omega, by omega, by omega, there.le⟩
  exact ⟨places.2.2, left_lt_of_pattern inside.le places.1 places.2.1 further⟩

theorem back?_progress (back : back? name s = some next) (ordered : s.Ordered name) (inside : s.name ≤ name.length) :
    next.Ordered name ∧ left pattern name next < left pattern name s := by
  have first := ordered.doubleStar_le
  have second := ordered.star_le
  rcases back?_eq_some back with ⟨mark, set, free, rfl⟩ | ⟨stuck, mark, place, set, after, rfl⟩
  · have held : s.starPlace name = mark.name := by simp [State.starPlace, set, free]
    have there : (s.backToStar mark).starPlace name = mark.name + 1 := starPlace_of_mark rfl rfl
    have same : (s.backToStar mark).doubleStarPlace = s.doubleStarPlace := rfl
    have reached : (s.backToStar mark).name = mark.name + 1 := rfl
    exact ⟨⟨by omega, by omega⟩, left_lt_of_star same.ge (by omega) (by omega)⟩
  · -- The star stays stuck, so that what counts is how far the double star has taken.
    have taken : s.doubleStarPlace = mark.name := by simp [State.doubleStarPlace, set]
    have still_stuck : (s.backToDoubleStar mark place).Stuck name := stuck
    have there : (s.backToDoubleStar mark place).starPlace name = place := still_stuck.starPlace
    have moved : (s.backToDoubleStar mark place).doubleStarPlace = place := rfl
    have reached : (s.backToDoubleStar mark place).name = place := rfl
    obtain ⟨further, -⟩ := afterSeparator?_bounds after
    exact ⟨⟨by omega, by omega⟩, left_lt_of_doubleStar (by omega) (by omega)⟩

end

/-! ## The answer does not depend on the number of steps -/

theorem matchesNothing?_of_length_lt {fuel more : Nat} {pattern : List Char} (enough : pattern.length < fuel)
    (le : fuel ≤ more) : matchesNothing? more pattern = matchesNothing? fuel pattern := by
  induction fuel generalizing more pattern with
  | zero => omega
  | succ fuel ih =>
    obtain ⟨more, rfl⟩ : ∃ k, more = k + 1 := ⟨more - 1, by omega⟩
    unfold matchesNothing?
    split
    · rfl
    · split
      · split
        · rfl
        · rename_i rest _ close found
          apply List.foldr_ext
          intro choice mem later
          have short := length_choice found mem
          simp only [List.length_cons] at enough
          rw [ih (by omega) (by omega)]
      · rfl

theorem firstDecision_congr {α : Type} {items : List α} {attempt attempt' : α → Option Bool}
    (same : ∀ item ∈ items, attempt item = attempt' item) :
    firstDecision (items.map fun item _ => attempt item) = firstDecision (items.map fun item _ => attempt' item) := by
  congr 1
  exact List.map_congr_left fun item mem => funext fun _ => same item mem

/-- Steps beyond those that are needed do not change the answer. -/
theorem run_of_left_lt {pattern name : List Char} {s : State} {fuel more : Nat} (ordered : s.Ordered name)
    (enough : left pattern name s < fuel) (le : fuel ≤ more) : run name more pattern s = run name fuel pattern s := by
  -- The pattern varies in the induction, since a group is matched by putting each choice into its place.
  induction fuel generalizing more pattern s with
  | zero => omega
  | succ fuel ih =>
    obtain ⟨more, rfl⟩ : ∃ k, more = k + 1 := ⟨more - 1, by omega⟩
    rw [run, run]
    split
    · rfl
    · rename_i c rest here
      have inside : s.name ≤ name.length := by
        by_contra outside
        rw [List.drop_eq_nil_of_le (by omega)] at here
        cases here
      cases stepped : step pattern s c with
      | matched => rfl
      | malformed => rfl
      | onward next =>
        obtain ⟨within, further, onward⟩ := step_eq_onward stepped
        obtain ⟨ordered_next, less⟩ := onward.progress ordered within further
        exact ih ordered_next (by omega) (by omega)
      | choice patterns =>
        obtain ⟨within, shorter⟩ := step_eq_choice stepped
        refine firstDecision_congr fun choice mem => ?_
        have less : left choice name { s with atStart := true } < left pattern name s :=
          left_lt_of_shorter (shorter choice mem) within.le rfl rfl rfl
        exact ih ⟨ordered.doubleStar_le, ordered.star_le⟩ (by omega) (by omega)
      | mismatch place =>
        dsimp only
        cases back : back? name s with
        | none => rfl
        | some earlier =>
          obtain ⟨ordered_earlier, less⟩ : earlier.Ordered name ∧ left pattern name earlier < left pattern name s :=
            back?_progress back ordered inside
          exact ih ordered_earlier (by omega) (by omega)

def start (atStart : Bool) : State := ⟨0, 0, none, none, atStart⟩

theorem ordered_start (name : List Char) (atStart : Bool) : (start atStart).Ordered name :=
  ⟨Nat.le_refl 0, Nat.le_refl 0⟩

theorem left_start_lt (pattern name : List Char) (atStart : Bool) :
    left pattern name (start atStart) < steps pattern name := by
  have whole : left pattern name (start atStart) + 1 =
      (pattern.length + 2) * ((name.length + 2) * (name.length + 2)) := by
    have places : (start atStart).doubleStarPlace = 0 ∧ (start atStart).starPlace name = 0 ∧
        (start atStart).pattern = 0 :=
      ⟨rfl, rfl, rfl⟩
    rw [left, places.1, places.2.1, places.2.2]
    simp only [Nat.sub_zero]
    ring
  have wide : (pattern.length + 2) * ((name.length + 2) * (name.length + 2)) ≤ steps pattern name := by
    rw [steps, Nat.mul_assoc]
    exact Nat.mul_le_mul_right _ (by omega)
  omega

/-- A match that begins at the beginning is given enough steps. -/
theorem run_start_of_steps_le {pattern name : List Char} {fuel : Nat} (atStart : Bool)
    (enough : steps pattern name ≤ fuel) :
    run name fuel pattern (start atStart) = run name (steps pattern name) pattern (start atStart) :=
  run_of_left_lt (ordered_start name atStart) (left_start_lt pattern name atStart) enough

end ScriptLoader.Glob
