import ScriptLoader.Proofs.Glob.Progress

/-!
Patterns with a literal beginning. Where a pattern and a path begin with the same text without pattern
characters, only what comes after it decides whether they match, and the directory below which the matches lie
begins with that text as well.
-/

set_option autoImplicit false
namespace ScriptLoader.Glob

def isLiteral (c : Char) : Bool := !isMeta c && c ≠ '\\'

theorem isLiteral_iff {c : Char} : isLiteral c = true ↔ c ≠ '*' ∧ c ≠ '?' ∧ c ≠ '[' ∧ c ≠ '\x7b' ∧ c ≠ '\\' := by
  simp [isLiteral, isMeta, and_assoc]

theorem isLiteral_shownChar {c : Char} (literal : isLiteral c = true) : isLiteral (Text.Utf8.shownChar c) = true := by
  unfold Text.Utf8.shownChar
  split
  · decide
  · exact literal

/-! ## One character before pattern and name -/

def Mark.behind (mark : Mark) : Mark := ⟨mark.pattern + 1, mark.name + 1⟩

/-- The same state of a match of a pattern and a name with one more character before each. -/
def State.behind (s : State) : State where
  pattern := s.pattern + 1
  name := s.name + 1
  star := s.star.map Mark.behind
  doubleStar := s.doubleStar.map Mark.behind
  atStart := s.atStart

def Step.behind (first : Char) : Step → Step
  | .matched => .matched
  | .malformed => .malformed
  | .mismatch place => .mismatch (place + 1)
  | .onward s => .onward s.behind
  | .choice patterns => .choice (patterns.map (first :: ·))

section
variable {first : Char} {pattern name : List Char} {s : State}

theorem literalStart_behind (literal : first ≠ '\\') (place : Nat) :
    literalStart (first :: pattern) (place + 1) = literalStart pattern place + 1 := by
  cases place with
  | zero => simp [literalStart, literal]
  | succ place =>
    simp only [literalStart, Nat.add_sub_cancel, List.getElem?_cons_succ]
    split
    · rename_i escaped
      simp [escaped.2]
    · rename_i plain
      simp at plain
      simp [plain]

theorem step_behind (literal : first ≠ '\\') (c : Char) :
    step (first :: pattern) s.behind c = (step pattern s c).behind first := by
  have rest : (first :: pattern).drop s.behind.pattern = pattern.drop s.pattern := rfl
  have size : (pattern.drop s.pattern).length = pattern.length - s.pattern := List.length_drop
  unfold step
  rw [rest]
  split
  · rfl
  · have same : s.behind.atStart = s.atStart := rfl
    rw [same]
    split
    · rfl
    · split <;> rfl
  · rfl
  · split <;> rfl
  · -- A class that was compared ends as far from the end of the pattern as before.
    rename_i after whole
    rw [whole, List.length_cons] at size
    have place : ∀ later, (matchClass after c).rest? = some later →
        (first :: pattern).length - later.length = pattern.length - later.length + 1 := by
      intro later ends
      have short := length_matchClass ends
      simp only [List.length_cons]
      omega
    cases compared : matchClass after c with
    | malformed => rfl
    | outside later => simp only [Step.behind, place later (congrArg ClassOutcome.rest? compared)]
    | inside later => simp only [Step.behind, State.behind, place later (congrArg ClassOutcome.rest? compared)]
  · split
    · rfl
    · simp only [Step.behind, List.map_map]
      rfl
  · rfl
  · split <;> rfl
  · split
    · rfl
    · simp only [Step.behind, State.behind, literalStart_behind literal]

theorem afterSeparator?_succ (index : Nat) (rest : List Char) :
    afterSeparator? (index + 1) rest = (afterSeparator? index rest).map (· + 1) := by
  induction rest generalizing index with
  | nil => rfl
  | cons c rest ih =>
    rw [afterSeparator?, afterSeparator?, ih]
    split <;> rfl

theorem again?_behind : again? (first :: name) s.behind = (again? name s).map State.behind := by
  unfold again?
  cases set : s.doubleStar with
  | none => simp [State.behind, set]
  | some mark =>
    have moved : s.behind.doubleStar = some mark.behind := by simp [State.behind, set]
    have after : afterSeparator? mark.behind.name ((first :: name).drop mark.behind.name) =
        (afterSeparator? mark.name (name.drop mark.name)).map (· + 1) := afterSeparator?_succ _ _
    rw [moved, Option.bind_some, after, Option.bind_some]
    cases afterSeparator? mark.name (name.drop mark.name) <;> rfl

theorem back?_behind : back? (first :: name) s.behind = (back? name s).map State.behind := by
  rw [back?_eq, back?_eq]
  cases set : s.star with
  | none =>
    have moved : s.behind.star = none := by simp [State.behind, set]
    rw [moved]
    exact again?_behind
  | some mark =>
    have moved : s.behind.star = some mark.behind := by simp [State.behind, set]
    have same : goesOn (first :: name) mark.behind.name = goesOn name mark.name := rfl
    simp only [moved, same]
    split
    · rfl
    · exact again?_behind

theorem run_behind (literal : first ≠ '\\') (fuel : Nat) :
    run (first :: name) fuel (first :: pattern) s.behind = run name fuel pattern s := by
  induction fuel generalizing pattern s with
  | zero => rfl
  | succ fuel ih =>
    have rest : (first :: name).drop s.behind.name = name.drop s.name := rfl
    rw [run, run, rest]
    split
    · -- The end of the pattern is tried with as many steps as the whole pattern is long, one more than before.
      have here : (first :: pattern).drop s.behind.pattern = pattern.drop s.pattern := rfl
      have size : (pattern.drop s.pattern).length = pattern.length - s.pattern := List.length_drop
      rw [here, List.length_cons]
      exact matchesNothing?_of_length_lt (by omega) (by omega)
    · rename_i c later _
      rw [step_behind literal]
      cases step pattern s c with
      | matched => rfl
      | malformed => rfl
      | onward next => exact ih
      | choice patterns =>
        simp only [Step.behind, List.map_map]
        exact firstDecision_congr fun choice _ => @ih choice { s with atStart := true }
      | mismatch place =>
        simp only [Step.behind, back?_behind]
        cases back? name s with
        | none => rfl
        | some earlier => exact ih

theorem step_literal (literal : isLiteral first = true) (atStart : Bool) :
    step (first :: pattern) (start atStart) first = .onward (start (decide (first = separator))).behind := by
  obtain ⟨star, question, bracket, brace, backslash⟩ := isLiteral_iff.mp literal
  unfold step
  split
  all_goals simp_all [start, State.behind]

theorem run_literal (literal : isLiteral first = true) (atStart : Bool) (fuel : Nat) :
    run (first :: name) (fuel + 1) (first :: pattern) (start atStart) =
      run name fuel pattern (start (decide (first = separator))) := by
  have here : (first :: name).drop (start atStart).name = first :: name := rfl
  rw [run, here]
  simp only [step_literal literal]
  exact run_behind (isLiteral_iff.mp literal).2.2.2.2 fuel

end

theorem run_append_literal {beginning pattern name : List Char} (literal : ∀ c ∈ beginning, isLiteral c = true)
    (atStart : Bool) (fuel : Nat) :
    run (beginning ++ name) (fuel + beginning.length) (beginning ++ pattern) (start atStart) =
      run name fuel pattern (start (beginning.foldl (fun _ c => decide (c = separator)) atStart)) := by
  induction beginning generalizing atStart with
  | nil => rfl
  | cons first rest ih =>
    obtain ⟨literal_first, literal_rest⟩ := List.forall_mem_cons.mp literal
    rw [List.length_cons, List.cons_append, List.cons_append, ← Nat.add_assoc, run_literal literal_first,
      ih literal_rest]
    rfl

/-- Whether a path matches a pattern when both go on from within a component. -/
def isMatchWithin (pattern path : String) : Bool :=
  let pattern := pattern.toList.map Text.Utf8.shownChar
  let path := path.toList.map Text.Utf8.shownChar
  (run path (steps pattern path) pattern (start false)).getD false

theorem steps_append (beginning pattern name : List Char) :
    steps pattern name + beginning.length ≤ steps (beginning ++ pattern) (beginning ++ name) := by
  simp only [steps, List.length_append, Nat.mul_assoc]
  have square : (name.length + 2) * (name.length + 2) ≤
      (beginning.length + name.length + 2) * (beginning.length + name.length + 2) :=
    Nat.mul_le_mul (by omega) (by omega)
  have positive : 1 ≤ (beginning.length + name.length + 2) * (beginning.length + name.length + 2) :=
    Nat.mul_pos (by omega) (by omega)
  generalize (beginning.length + name.length + 2) * (beginning.length + name.length + 2) = area at square positive
  calc (pattern.length + name.length + 2) * ((name.length + 2) * (name.length + 2)) + beginning.length
      ≤ (pattern.length + name.length + 2) * area + beginning.length * area :=
        Nat.add_le_add (Nat.mul_le_mul_left _ square) (Nat.le_mul_of_pos_right _ positive)
    _ = (pattern.length + name.length + 2 + beginning.length) * area := (Nat.add_mul _ _ _).symm
    _ ≤ _ := Nat.mul_le_mul_right _ (by omega)

/-- Behind a literal beginning that ends within a component, only what follows decides. -/
theorem isMatch_append {beginning : String} {before : List Char} {last : Char}
    (ends : beginning.toList = before ++ [last])
    (within : last ≠ separator) (literal : ∀ c ∈ beginning.toList, isLiteral c = true) (pattern path : String) :
    isMatch (beginning ++ pattern) (beginning ++ path) = isMatchWithin pattern path := by
  have shown_literal : ∀ c ∈ beginning.toList.map Text.Utf8.shownChar, isLiteral c = true := by
    intro c mem
    obtain ⟨own, listed, rfl⟩ := List.mem_map.mp mem
    exact isLiteral_shownChar (literal own listed)
  have shown_within : Text.Utf8.shownChar last ≠ separator := by
    unfold Text.Utf8.shownChar
    split
    · decide
    · exact within
  have goes_on : (beginning.toList.map Text.Utf8.shownChar).foldl (fun _ c => decide (c = separator)) true = false := by
    simp [ends, shown_within]
  simp only [isMatch, isMatchWithin, String.toList_append, List.map_append]
  generalize beginning.toList.map Text.Utf8.shownChar = shown at shown_literal goes_on
  generalize pattern.toList.map Text.Utf8.shownChar = pattern
  generalize path.toList.map Text.Utf8.shownChar = name
  have enough := steps_append shown pattern name
  obtain ⟨more, whole⟩ : ∃ more, steps (shown ++ pattern) (shown ++ name) = more + shown.length :=
    ⟨steps (shown ++ pattern) (shown ++ name) - shown.length, by omega⟩
  have begun : run (shown ++ name) (more + shown.length) (shown ++ pattern) (start true) =
      run name more pattern (start false) := by
    rw [run_append_literal shown_literal, goes_on]
  rw [← whole, run_start_of_steps_le false (by omega)] at begun
  exact congrArg (·.getD false) begun

/-! ## The directory below which the matches lie -/

theorem lastPlainSeparator_cons {c : Char} (plain : c ≠ '\\') (ordinary : isMeta c = false)
    (found : Option Nat) (index : Nat) (rest : List Char) :
    lastPlainSeparator found index (c :: rest) =
      lastPlainSeparator (if c = separator then some index else found) (index + 1) rest := by
  rw [lastPlainSeparator.eq_def]
  simp only [plain, ordinary, if_false, Bool.false_eq_true]

theorem lastPlainSeparator_add (moved : Nat) (found : Option Nat) (index : Nat) (s : List Char) :
    lastPlainSeparator (found.map (· + moved)) (index + moved) s =
      (lastPlainSeparator found index s).map (· + moved) := by
  fun_induction lastPlainSeparator found index s with
  | case1 => rfl
  | case2 => rfl
  | case3 found index c rest ih =>
    rw [← ih, lastPlainSeparator.eq_def, Nat.add_right_comm]
    rfl
  | case4 found index c rest plain special =>
    rw [lastPlainSeparator.eq_def]
    simp only [plain, special, if_true, if_false]
  | case5 found index c rest plain ordinary ih =>
    rw [← ih, lastPlainSeparator_cons plain (Bool.eq_false_of_not_eq_true ordinary), Nat.add_right_comm]
    by_cases divides : c = separator <;> simp [divides]

theorem lastPlainSeparator_append_literal {beginning : List Char} (literal : ∀ c ∈ beginning, isLiteral c = true)
    (found : Option Nat) (index : Nat) (s : List Char) :
    ∃ other, lastPlainSeparator found index (beginning ++ s) =
      lastPlainSeparator other (index + beginning.length) s := by
  induction beginning generalizing found index with
  | nil => exact ⟨found, rfl⟩
  | cons c rest ih =>
    obtain ⟨literal_first, literal_rest⟩ := List.forall_mem_cons.mp literal
    obtain ⟨ordinary, plain⟩ : isMeta c = false ∧ c ≠ '\\' := by simpa [isLiteral] using literal_first
    obtain ⟨other, same⟩ := ih literal_rest (if c = separator then some index else found) (index + 1)
    refine ⟨other, ?_⟩
    rw [List.cons_append, lastPlainSeparator_cons plain ordinary, same, List.length_cons]
    congr 1
    omega

/-- What was found before a separator is of no account. -/
theorem lastPlainSeparator_separator (found : Option Nat) (index : Nat) (s : List Char) :
    lastPlainSeparator found index (separator :: s) = lastPlainSeparator (some index) (index + 1) s := by
  rw [lastPlainSeparator_cons (by decide) (by decide), if_pos rfl]

theorem lastPlainSeparator_some {before : Nat} (index : Nat) (s : List Char) :
    ∃ place, lastPlainSeparator (some before) index s = some place ∧
      (place = before ∨ ∃ offset, place = index + offset ∧ s[offset]? = some separator) := by
  generalize given : some before = found
  fun_induction lastPlainSeparator found index s generalizing before with
  | case1 => exact ⟨before, given.symm, .inl rfl⟩
  | case2 => exact ⟨before, given.symm, .inl rfl⟩
  | case3 found index c rest ih =>
    obtain ⟨place, last, same | ⟨offset, same, there⟩⟩ := ih given
    · exact ⟨place, last, .inl same⟩
    · exact ⟨place, last, .inr ⟨offset + 2, by omega, there⟩⟩
  | case4 => exact ⟨before, given.symm, .inl rfl⟩
  | case5 found index c rest plain ordinary ih =>
    by_cases divides : c = separator
    · obtain ⟨place, last, same | ⟨offset, same, there⟩⟩ := ih (if_pos divides).symm
      · exact ⟨place, last, .inr ⟨0, same, by simp [divides]⟩⟩
      · exact ⟨place, last, .inr ⟨offset + 1, by omega, there⟩⟩
    · obtain ⟨place, last, same | ⟨offset, same, there⟩⟩ := ih (given.trans (if_neg divides).symm)
      · exact ⟨place, last, .inl same⟩
      · exact ⟨place, last, .inr ⟨offset + 1, by omega, there⟩⟩

theorem unescape_cons {c : Char} (plain : c ≠ '\\') (s : List Char) : unescape (c :: s) = c :: unescape s := by
  cases s with
  | nil => simp [unescape]
  | cons d rest => simp [unescape, plain]

theorem unescape_append_literal {beginning : List Char} (literal : ∀ c ∈ beginning, isLiteral c = true)
    (s : List Char) :
    unescape (beginning ++ s) = beginning ++ unescape s := by
  induction beginning with
  | nil => rfl
  | cons c rest ih =>
    obtain ⟨literal_first, literal_rest⟩ := List.forall_mem_cons.mp literal
    rw [List.cons_append, unescape_cons (isLiteral_iff.mp literal_first).2.2.2.2, ih literal_rest]
    rfl

theorem unescape_append_separator (s rest : List Char) :
    unescape (s ++ separator :: rest) = unescape s ++ separator :: unescape rest := by
  have divides : unescape (separator :: rest) = separator :: unescape rest := unescape_cons (by decide) rest
  fun_induction unescape s with
  | case1 => exact divides
  | case2 => rw [List.singleton_append, unescape, if_neg (by decide), divides]; rfl
  | case3 c d later escaped ih => simp [unescape, escaped, ih]
  | case4 c d later kept ih =>
    rw [List.cons_append, List.cons_append, unescape, if_neg kept, ← List.cons_append, ih]
    rfl
  | case5 c plain => rw [List.singleton_append, unescape_cons plain, divides]; rfl

theorem mem_of_mem_unescape {s : List Char} {c : Char} (mem : c ∈ unescape s) : c ∈ s := by
  fun_induction unescape s <;> grind

/-- Taking backslashes off leaves a text as it is, or leaves an escaped character in it. -/
theorem unescape_eq_or (s : List Char) : unescape s = s ∨ ∃ c ∈ unescape s, isMeta c ∨ c = ']' ∨ c = '\x7d' := by
  fun_induction unescape s with
  | case1 => exact .inl rfl
  | case2 => exact .inl rfl
  | case3 c d rest escaped ih => exact .inr ⟨d, List.mem_cons_self, escaped.2⟩
  | case4 c d rest kept ih =>
    rcases ih with same | ⟨special, mem, kind⟩
    · exact .inl (by rw [same])
    · exact .inr ⟨special, List.mem_cons_of_mem _ mem, kind⟩
  | case5 => exact .inl rfl

/-- The directory of a pattern with a literal beginning is that beginning and a part of the rest, up to a separator. -/
theorem exists_base_append (rest : List Char) :
    ∃ place, (separator :: rest)[place]? = some separator ∧
      ∀ beginning : String, beginning ≠ "" → (∀ c ∈ beginning.toList, isLiteral c = true) →
        base (beginning ++ String.ofList (separator :: rest)) =
          beginning ++ String.ofList (unescape ((separator :: rest).take place)) := by
  obtain ⟨place, last, there⟩ : ∃ place, lastPlainSeparator (some 0) 1 rest = some place ∧ _ :=
    lastPlainSeparator_some 1 rest
  refine ⟨place, ?_, ?_⟩
  · rcases there with rfl | ⟨offset, rfl, there⟩
    · rfl
    · rw [Nat.add_comm]
      exact there
  · intro beginning some_text literal
    have size : 0 < beginning.toList.length := by
      rw [List.length_pos_iff]
      simpa using some_text
    have found : lastPlainSeparator none 0 (beginning ++ String.ofList (separator :: rest)).toList =
        some (place + beginning.toList.length) := by
      obtain ⟨other, same⟩ := lastPlainSeparator_append_literal literal none 0 (separator :: rest)
      have moved := lastPlainSeparator_add beginning.toList.length (some 0) 1 rest
      rw [last] at moved
      rw [String.toList_append, String.toList_ofList, same, lastPlainSeparator_separator]
      simpa [Nat.add_comm] using moved
    have cut : (beginning ++ String.ofList (separator :: rest)).toList.take (place + beginning.toList.length) =
        beginning.toList ++ (separator :: rest).take place := by
      rw [String.toList_append, String.toList_ofList, Nat.add_comm, List.take_length_add_append]
    rw [base, found]
    -- The place is not the beginning of the whole, so that the directory is not the root.
    split
    · rename_i nowhere
      cases nowhere
    · rename_i root
      have root := Option.some.inj root
      omega
    · rename_i index _ whole
      rw [← Option.some.inj whole, cut, unescape_append_literal literal]
      simp

end ScriptLoader.Glob
