import ScriptLoader.Text.Basic
import ScriptLoader.Text.Width

/-!
Lines on a terminal. Escape sequences take no cells, and a cluster takes those of all its characters, with
exceptions for pictographs, flags and syllables. A block of lines is brought to one width.
-/

set_option autoImplicit false
namespace ScriptLoader.Text

def textPictographs : Array (Nat × Nat) := #[
  (0x3030, 0x3030), (0x303D, 0x303D), (0x3297, 0x3297), (0x3299, 0x3299), (0x1F202, 0x1F202),
  (0x1F237, 0x1F237), (0x1F260, 0x1F265)]

/-- Wide characters that are younger than the tables of terminals. -/
def youngRanges : Array (Nat × Nat) := #[(0x2FFC, 0x2FFF), (0x31EF, 0x31EF)]

def charCells (c : Char) : Nat :=
  match Grapheme.classify c with
  | .control | .carriageReturn | .lineFeed | .extend | .joiner => 0
  | .flag => 2
  | _ =>
    if c.toNat = 0x2E3A then 3
    else if c.toNat = 0x2E3B then 4
    else if covers wideRanges c && !covers youngRanges c && !covers textPictographs c then 2
    else 1

def selectCells (cells : Nat) (c : Char) : Nat :=
  if c.toNat = 0xFE0E then 1 else if c.toNat = 0xFE0F then 2 else cells

def clusterCells (first : Char) (rest : List Char) : Nat :=
  match Grapheme.classify first with
  | .pictograph => rest.foldl selectCells (charCells first)
  | .flag | .leading => charCells first
  | _ => charCells first + (rest.map charCells).foldr (· + ·) 0

inductive EscapeState where
  | ground
  | escape
  /-- In a short sequence that ends with a letter or a digit. -/
  | short
  /-- In a control sequence, which ends with a letter. -/
  | control
  /-- In a command with text, which a bell ends as well. -/
  | command
  /-- In other text that is not shown. -/
  | hidden
  deriving DecidableEq, Repr

def EscapeState.next (state : EscapeState) (c : Char) : EscapeState :=
  let n := c.toNat
  if n = 0x1B then .escape
  else if n = 0x18 ∨ n = 0x1A then .ground
  else match state with
    | .ground => .ground
    | .escape =>
      if n < 0x20 ∨ n = 0x7F then .escape
      else if n < 0x30 then .short
      else if c = '[' then .control
      else if c = ']' then .command
      else if c = 'P' ∨ c = 'X' ∨ c = '^' ∨ c = '_' then .hidden
      else .ground
    | .short => if n < 0x30 ∨ n = 0x7F then .short else .ground
    | .control => if n < 0x40 ∨ n = 0x7F then .control else .ground
    | .command => if n = 0x07 then .ground else .command
    | .hidden => .hidden

def cellsFrom (state : EscapeState) : List Char → Nat
  | [] => 0
  | c :: rest =>
    if c.toNat < 0x80 then
      (if state = .ground ∧ 0x20 ≤ c.toNat then 1 else 0) + cellsFrom (state.next c) rest
    else if state = .command then cellsFrom state rest
    else
      let cluster := Grapheme.continuation (Grapheme.start (Grapheme.classify c)) rest
      clusterCells c cluster.1 + cellsFrom .ground cluster.2
  termination_by s => s.length
  decreasing_by
    · simp
    · simp
    · exact Nat.lt_succ_of_le (Grapheme.length_continuation _ _)

def cells (line : List Char) : Nat := cellsFrom .ground line

/-- Lines filled up with blanks to the width of the widest. Each tab becomes four blanks. -/
def evenLines (s : String) : String :=
  let lines := split '\n' (replace s "\t" "    ").toList
  let widest := (lines.map cells).foldl max 0
  String.intercalate "\n" (lines.map fun line =>
    String.ofList (line ++ List.replicate (widest - cells line) ' '))

end ScriptLoader.Text
