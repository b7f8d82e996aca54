import ScriptLoader.Text.Basic
import ScriptLoader.Text.Utf8

/-!
Path patterns. `*` and `?` match within one component, `**` as a whole component matches any number of
components, `[...]` one character of a class, `{a,b}` either text, and a backslash takes the next
character as it is. Matching a malformed pattern fails as soon as the malformed part is looked at; what a
match that fails has not looked at is checked as a pattern of its own.
-/

set_option autoImplicit false
namespace ScriptLoader.Glob

def separator : Char := '/'

def closingBrace? : Nat → Nat → List Char → Option Nat
  | _, _, [] => none
  | _, _, ['\\'] => none
  | depth, index, '\\' :: _ :: rest => closingBrace? depth (index + 2) rest
  | depth, index, '{' :: rest => closingBrace? (depth + 1) (index + 1) rest
  | 0, index, '}' :: _ => some index
  | depth + 1, index, '}' :: rest => closingBrace? depth (index + 1) rest
  | depth, index, _ :: rest => closingBrace? depth (index + 1) rest

def alternatives : Int → List Char → List (List Char)
  | _, [] => [[]]
  | _, ['\\'] => [['\\']]
  | depth, c :: rest =>
    let keep (taken : List Char) (tail : List (List Char)) : List (List Char) :=
      match tail with
      | [] => [taken]
      | first :: more => (taken ++ first) :: more
    if c = '\\' then
      match rest with
      | [] => [['\\']]
      | d :: rest => keep ['\\', d] (alternatives depth rest)
    else if c = '{' then keep [c] (alternatives (depth + 1) rest)
    else if c = '}' then keep [c] (alternatives (depth - 1) rest)
    else if c = ',' ∧ depth = 0 then [] :: alternatives depth rest
    else keep [c] (alternatives depth rest)

def afterClass? : List Char → Option (List Char)
  | [] => none
  | ['\\'] => none
  | '\\' :: _ :: rest => afterClass? rest
  | ']' :: rest => some rest
  | _ :: rest => afterClass? rest

def classBody : List Char → List Char
  | '^' :: body => body
  | '!' :: body => body
  | body => body

def skipClass? (s : List Char) : Option (List Char) :=
  match classBody s with
  | [] => none
  | ']' :: _ => none
  | body => afterClass? body

theorem length_afterClass? {s rest : List Char} (h : afterClass? s = some rest) : rest.length < s.length := by
  fun_induction afterClass? s with
  | case1 => simp at h
  | case2 => simp at h
  | case3 _ _ ih => have := ih h; simp; omega
  | case4 => simp at h; subst h; simp
  | case5 _ _ _ _ _ ih => have := ih h; simp; omega

theorem length_classBody (s : List Char) : (classBody s).length ≤ s.length := by
  unfold classBody
  split <;> simp

theorem length_skipClass? {s rest : List Char} (h : skipClass? s = some rest) : rest.length < s.length := by
  have bound := length_classBody s
  unfold skipClass? at h
  split at h
  · simp at h
  · simp at h
  · have := length_afterClass? h
    omega

/-- Whether a pattern is well formed, given the number of braces open before it. -/
def valid (depth : Nat) : List Char → Bool
  | [] => depth == 0
  | c :: rest =>
    if c = '\\' then
      match rest with
      | [] => false
      | _ :: rest => valid depth rest
    else if c = '[' then
      match h : skipClass? rest with
      | none => false
      | some rest' =>
        have : rest'.length < rest.length := length_skipClass? h
        valid depth rest'
    else if c = '{' then valid (depth + 1) rest
    else if c = '}' then if depth = 0 then false else valid (depth - 1) rest
    else valid depth rest
  termination_by s => s.length
  decreasing_by all_goals (simp_wf; try omega)

/-- Compares a character with the items of a class, up to the first that holds it. Gives whether one did, and
the pattern from there on. -/
def classItems (c : Char) : Nat → Option Char → List Char → Bool × List Char
  | 0, _, s => (false, s)
  | _ + 1, _, [] => (false, [])
  | _ + 1, _, ']' :: rest => (false, ']' :: rest)
  | fuel + 1, last, item :: rest =>
    match last, item, rest with
    | some low, '-', next :: more =>
      if next = ']' then
        if c = '-' then (true, rest) else classItems c fuel (some '-') rest
      else
        let (high, more) := if next = '\\' then (more.head?, more.tail) else (some next, more)
        match high with
        | none => (false, [])
        | some high => if low ≤ c ∧ c ≤ high then (true, more) else classItems c fuel none more
    | _, _, _ =>
      if item = '\\' then
        match rest with
        | [] => (false, [])
        | escaped :: more => if escaped = c then (true, more) else classItems c fuel (some escaped) more
      else if item = c then (true, rest)
      else classItems c fuel (some item) rest

inductive ClassOutcome where
  | malformed
  /-- The class does not hold the character; the pattern goes on from where that was settled. -/
  | outside (rest : List Char)
  /-- The class holds the character; the pattern goes on behind the class. -/
  | inside (rest : List Char)

def matchClass (s : List Char) (c : Char) : ClassOutcome :=
  let body := classBody s
  let negated := decide (body.length < s.length)
  match body with
  | [] => .malformed
  | ']' :: _ => .malformed
  | body =>
    let (found, rest) := classItems c (body.length + 1) none body
    if found = negated then
      if rest.isEmpty then .malformed else .outside rest
    else match afterClass? rest with
      | some rest => .inside rest
      | none => .malformed

/-- Whether what is left of a pattern matches the empty text. `none` for a malformed pattern. The fuel is the
pattern's length. -/
def matchesNothing? : Nat → List Char → Option Bool
  | 0, _ => some false
  | fuel + 1, pattern =>
    if pattern ∈ [[], ['*'], ['*', '*'], ['/', '*', '*'], ['*', '*', '/'], ['/', '*', '*', '/']] then some true
    else match pattern with
      | '{' :: rest =>
        match closingBrace? 0 0 rest with
        | none => none
        | some close =>
          (alternatives 0 (rest.take close)).foldr (fun choice later =>
            match matchesNothing? fuel (choice ++ rest.drop (close + 1)) with
            | some false => later
            | decided => decided) (some false)
      | _ => if valid 0 pattern then some false else none

structure Mark where
  pattern : Nat
  name : Nat

structure State where
  pattern : Nat
  name : Nat
  star : Option Mark
  doubleStar : Option Mark
  atStart : Bool

def afterSeparator? : Nat → List Char → Option Nat
  | _, [] => none
  | index, c :: rest => if c = separator then some (index + 1) else afterSeparator? (index + 1) rest

/-- Goes back to the last star, or else to the last double star; `none` when there is nothing left to try. -/
def back? (name : List Char) (s : State) : Option State :=
  let toDoubleStar : Option State := do
    let mark ← s.doubleStar
    let next ← afterSeparator? mark.name (name.drop mark.name)
    return { pattern := mark.pattern, name := next, star := s.star,
             doubleStar := some ⟨mark.pattern, next⟩, atStart := true }
  match s.star with
  | none => toDoubleStar
  | some mark =>
    match name.drop mark.name with
    | c :: _ =>
      if c = separator then toDoubleStar
      else some { s with
        pattern := mark.pattern, name := mark.name + 1, star := some ⟨mark.pattern, mark.name + 1⟩, atStart := false }
    | [] => toDoubleStar

inductive Step where
  | matched
  | malformed
  /-- They do not fit; the pattern has been looked at up to the given place. -/
  | mismatch (place : Nat)
  | onward (s : State)
  | choice (patterns : List (List Char))

/-- Where a literal that does not fit begins: a backslash before it belongs to it. -/
def literalStart (pattern : List Char) (place : Nat) : Nat :=
  if place ≠ 0 ∧ pattern[place - 1]? = some '\\' then place - 1 else place

def step (pattern : List Char) (s : State) (c : Char) : Step :=
  match pattern.drop s.pattern with
  | [] => .mismatch s.pattern
  | '*' :: '*' :: rest =>
    if s.atStart && rest.isEmpty then .matched
    else if s.atStart && rest.head? == some separator then
      .onward { s with pattern := s.pattern + 3, doubleStar := some ⟨s.pattern + 3, s.name⟩, star := none }
    else
      .onward { s with pattern := s.pattern + 2, star := some ⟨s.pattern + 2, s.name⟩, atStart := false }
  | '*' :: _ =>
    .onward { s with pattern := s.pattern + 1, star := some ⟨s.pattern + 1, s.name⟩, atStart := false }
  | '?' :: _ =>
    if c = separator then .mismatch s.pattern
    else .onward { s with pattern := s.pattern + 1, name := s.name + 1, atStart := false }
  | '[' :: rest =>
    match matchClass rest c with
    | .malformed => .malformed
    | .outside rest => .mismatch (pattern.length - rest.length)
    | .inside rest =>
      .onward { s with pattern := pattern.length - rest.length, name := s.name + 1, atStart := false }
  | '{' :: rest =>
    match closingBrace? 0 0 rest with
    | none => .malformed
    | some close =>
      .choice ((alternatives 0 (rest.take close)).map fun choice =>
        pattern.take s.pattern ++ choice ++ rest.drop (close + 1))
  | ['\\'] => .malformed
  | '\\' :: d :: _ =>
    if d = c then
      .onward { s with pattern := s.pattern + 2, name := s.name + 1, atStart := decide (d = separator) }
    else .mismatch s.pattern
  | d :: _ =>
    if d = c then
      .onward { s with pattern := s.pattern + 1, name := s.name + 1, atStart := decide (d = separator) }
    else .mismatch (literalStart pattern s.pattern)

def firstDecision : List (Unit → Option Bool) → Option Bool
  | [] => some false
  | attempt :: rest =>
    match attempt () with
    | some false => firstDecision rest
    | decided => decided

/-- Runs a match. `none` for a malformed pattern; the fuel bounds the number of steps. -/
def run (name : List Char) : Nat → List Char → State → Option Bool
  | 0, _, _ => some false
  | fuel + 1, pattern, s =>
    match name.drop s.name with
    | [] => matchesNothing? (pattern.length + 1) (pattern.drop s.pattern)
    | c :: _ =>
      match step pattern s c with
      | .matched => some true
      | .malformed => none
      | .onward s => run name fuel pattern s
      | .choice patterns =>
        firstDecision (patterns.map fun pattern _ => run name fuel pattern { s with atStart := true })
      | .mismatch place =>
        match back? name s with
        | some earlier => run name fuel pattern earlier
        | none => if valid 0 (pattern.drop place) then some false else none

/-- Each step moves on in the pattern or goes back to a star with less of the name left. -/
def steps (pattern name : List Char) : Nat :=
  (pattern.length + name.length + 2) * (name.length + 2) * (name.length + 2)

/-- Whether a path matches a pattern as a whole. A malformed pattern does not match. Bytes that belong to no
character count as the replacement character. -/
def isMatch (pattern path : String) : Bool :=
  let pattern := pattern.toList.map Text.Utf8.shownChar
  let path := path.toList.map Text.Utf8.shownChar
  (run path (steps pattern path) pattern ⟨0, 0, none, none, true⟩).getD false

def isMeta (c : Char) : Bool := c = '*' || c = '?' || c = '[' || c = '{'

def unescape : List Char → List Char
  | [] => []
  | ['\\'] => ['\\']
  | c :: d :: rest =>
    if c = '\\' ∧ (isMeta d ∨ d = ']' ∨ d = '}') then d :: unescape rest else c :: unescape (d :: rest)
  | [c] => [c]

def lastPlainSeparator : Option Nat → Nat → List Char → Option Nat
  | found, _, [] => found
  | found, index, c :: rest =>
    if c = '\\' then
      match rest with
      | [] => found
      | _ :: rest => lastPlainSeparator found (index + 2) rest
    else if isMeta c then found
    else lastPlainSeparator (if c = separator then some index else found) (index + 1) rest

/-- The directory below which all matches of a pattern lie. -/
def base (pattern : String) : String :=
  match lastPlainSeparator none 0 pattern.toList with
  | none => "."
  | some 0 => "/"
  | some index => String.ofList (unescape (pattern.toList.take index))

end ScriptLoader.Glob
