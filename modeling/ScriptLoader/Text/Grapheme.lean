import ScriptLoader.Text.GraphemeRanges
import ScriptLoader.Text.Ranges

/-! Division of text into characters as a reader sees them. -/

set_option autoImplicit false
namespace ScriptLoader.Text.Grapheme

inductive Class where
  | carriageReturn | lineFeed | control | extend | joiner | spacing | prepend
  | leading | vowel | trailing | syllable | closedSyllable | flag | pictograph | other
  deriving DecidableEq, Repr

def classify (c : Char) : Class :=
  let n := c.toNat
  if c = '\r' then .carriageReturn
  else if c = '\n' then .lineFeed
  else if n < 0x20 then .control
  else if n < 0x7F then .other
  else if n = 0x200D then .joiner
  else if 0x1F1E6 ≤ n ∧ n ≤ 0x1F1FF then .flag
  else if (0x1100 ≤ n ∧ n ≤ 0x115F) ∨ (0xA960 ≤ n ∧ n ≤ 0xA97C) then .leading
  else if (0x1160 ≤ n ∧ n ≤ 0x11A7) ∨ (0xD7B0 ≤ n ∧ n ≤ 0xD7C6) then .vowel
  else if (0x11A8 ≤ n ∧ n ≤ 0x11FF) ∨ (0xD7CB ≤ n ∧ n ≤ 0xD7FB) then .trailing
  else if 0xAC00 ≤ n ∧ n ≤ 0xD7A3 then if (n - 0xAC00) % 28 = 0 then .syllable else .closedSyllable
  else if covers controlRanges c then .control
  else if covers extendRanges c then .extend
  else if covers spacingRanges c then .spacing
  else if covers prependRanges c then .prepend
  else if covers pictographRanges c then .pictograph
  else .other

/-- What the characters of a cluster so far say about the next one. -/
structure Context where
  last : Class
  /-- A pictograph and marks after it, possibly with a joiner at the end. -/
  pictograph : Bool
  /-- An odd number of flag letters stands at the end. -/
  oddFlags : Bool

def isBreaking : Class → Bool
  | .carriageReturn | .lineFeed | .control => true
  | _ => false

def continues (context : Context) (next : Class) : Bool :=
  match context.last, next with
  | .carriageReturn, .lineFeed => true
  | last, next =>
    if isBreaking last || isBreaking next then false
    else match last, next with
      | .leading, .leading | .leading, .vowel | .leading, .syllable | .leading, .closedSyllable => true
      | .syllable, .vowel | .vowel, .vowel | .syllable, .trailing | .vowel, .trailing => true
      | .closedSyllable, .trailing | .trailing, .trailing => true
      | _, .extend | _, .joiner | _, .spacing => true
      | .prepend, _ => true
      | .joiner, .pictograph => context.pictograph
      | .flag, .flag => context.oddFlags
      | _, _ => false

def start (first : Class) : Context := ⟨first, first == .pictograph, first == .flag⟩

def advance (context : Context) (next : Class) : Context :=
  { last := next
    pictograph := next == .pictograph || (context.pictograph && (next == .extend || next == .joiner))
    oddFlags := next == .flag && !context.oddFlags }

def continuation (context : Context) : List Char → List Char × List Char
  | [] => ([], [])
  | c :: cs =>
    if continues context (classify c) then
      let (part, left) := continuation (advance context (classify c)) cs
      (c :: part, left)
    else ([], c :: cs)

theorem length_continuation (context : Context) (s : List Char) :
    (continuation context s).2.length ≤ s.length := by
  induction s generalizing context with
  | nil => simp [continuation]
  | cons c cs ih =>
    unfold continuation
    split
    · simpa using Nat.le_succ_of_le (ih (advance context (classify c)))
    · simp

def clusters : List Char → List (List Char)
  | [] => []
  | c :: cs =>
    (c :: (continuation (start (classify c)) cs).1) :: clusters (continuation (start (classify c)) cs).2
  termination_by s => s.length
  decreasing_by exact Nat.lt_succ_of_le (length_continuation _ _)

end ScriptLoader.Text.Grapheme
