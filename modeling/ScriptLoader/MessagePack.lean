import ScriptLoader.Text.Utf8

/-!
MessagePack values as far as they are needed here: texts, flags, the sizes of maps and arrays, and values
that are only passed over.
-/

set_option autoImplicit false
namespace ScriptLoader.MessagePack

def number (bytes : List UInt8) : Nat := bytes.foldl (fun n b => n * 256 + b.toNat) 0

def take? (count : Nat) (bytes : List UInt8) : Option (List UInt8 × List UInt8) :=
  if count ≤ bytes.length then some (bytes.take count, bytes.drop count) else none

def number? (width : Nat) (bytes : List UInt8) : Option (Nat × List UInt8) :=
  (take? width bytes).map fun (digits, rest) => (number digits, rest)

def ofNumber : Nat → Nat → List UInt8
  | 0, _ => []
  | width + 1, n => ofNumber width (n / 256) ++ [UInt8.ofNat n]

/-- What the first byte says: how many bytes of sizes follow, how many bytes of content for a size, and how
many further values. -/
structure Shape where
  sizeWidth : Nat := 0
  content : Nat → Nat := fun _ => 0
  values : Nat → Nat := fun _ => 0

def shape? (b : UInt8) : Option Shape :=
  let n := b.toNat
  if n < 0x80 ∨ 0xE0 ≤ n then some {}
  else if n < 0x90 then some { values := fun _ => 2 * (n - 0x80) }
  else if n < 0xA0 then some { values := fun _ => n - 0x90 }
  else if n < 0xC0 then some { content := fun _ => n - 0xA0 }
  else if n = 0xC0 ∨ n = 0xC2 ∨ n = 0xC3 then some {}
  else if n = 0xC4 ∨ n = 0xD9 then some { sizeWidth := 1, content := id }
  else if n = 0xC5 ∨ n = 0xDA then some { sizeWidth := 2, content := id }
  else if n = 0xC6 ∨ n = 0xDB then some { sizeWidth := 4, content := id }
  else if n = 0xC7 then some { sizeWidth := 1, content := (· + 1) }
  else if n = 0xC8 then some { sizeWidth := 2, content := (· + 1) }
  else if n = 0xC9 then some { sizeWidth := 4, content := (· + 1) }
  else if n = 0xCA ∨ n = 0xCE ∨ n = 0xD2 then some { content := fun _ => 4 }
  else if n = 0xCB ∨ n = 0xCF ∨ n = 0xD3 then some { content := fun _ => 8 }
  else if n = 0xCC ∨ n = 0xD0 then some { content := fun _ => 1 }
  else if n = 0xCD ∨ n = 0xD1 then some { content := fun _ => 2 }
  else if n = 0xD4 then some { content := fun _ => 2 }
  else if n = 0xD5 then some { content := fun _ => 3 }
  else if n = 0xD6 then some { content := fun _ => 5 }
  else if n = 0xD7 then some { content := fun _ => 9 }
  else if n = 0xD8 then some { content := fun _ => 17 }
  else if n = 0xDC then some { sizeWidth := 2, values := id }
  else if n = 0xDD then some { sizeWidth := 4, values := id }
  else if n = 0xDE then some { sizeWidth := 2, values := (2 * ·) }
  else if n = 0xDF then some { sizeWidth := 4, values := (2 * ·) }
  else none

/-- Passes over the beginning of a value and its content, and tells how many values belong to it. -/
def open? : List UInt8 → Option (Nat × List UInt8)
  | [] => none
  | b :: rest => do
    let shape ← shape? b
    let (size, rest) ← number? shape.sizeWidth rest
    let (_, rest) ← take? (shape.content size) rest
    return (shape.values size, rest)

theorem length_take? {count : Nat} {bytes taken rest : List UInt8} (h : take? count bytes = some (taken, rest)) :
    rest.length ≤ bytes.length := by
  unfold take? at h
  split at h
  · simp at h; obtain ⟨-, rfl⟩ := h; simp
  · simp at h

theorem length_number? {width n : Nat} {bytes rest : List UInt8} (h : number? width bytes = some (n, rest)) :
    rest.length ≤ bytes.length := by
  unfold number? at h
  simp only [Option.map_eq_some_iff, Prod.mk.injEq] at h
  obtain ⟨⟨taken, left⟩, found, -, rfl⟩ := h
  exact length_take? found

theorem length_open? {bytes rest : List UInt8} {values : Nat} (h : open? bytes = some (values, rest)) :
    rest.length < bytes.length := by
  cases bytes with
  | nil => simp [open?] at h
  | cons b tail =>
    simp only [open?, bind, Option.bind_eq_some_iff, pure, Option.some.injEq, Prod.mk.injEq] at h
    obtain ⟨shape, -, ⟨size, left⟩, first, ⟨taken, last⟩, second, -, rfl⟩ := h
    have shorter : left.length ≤ tail.length := length_number? first
    have shortest : last.length ≤ left.length := length_take? second
    exact Nat.lt_succ_of_le (Nat.le_trans shortest shorter)

def skip? : Nat → List UInt8 → Option (List UInt8)
  | 0, bytes => some bytes
  | count + 1, bytes =>
    match h : open? bytes with
    | none => none
    | some (values, rest) => skip? (values + count) rest
  termination_by count bytes => (bytes.length, count)
  decreasing_by exact Prod.Lex.left _ _ (length_open? h)

/-- What a text or its absence stands for: `none` for nil. -/
def text? : List UInt8 → Option (Option (List UInt8) × List UInt8)
  | [] => none
  | b :: rest =>
    let n := b.toNat
    let sized (width : Nat) : Option (Option (List UInt8) × List UInt8) := do
      let (size, rest) ← number? width rest
      let (content, rest) ← take? size rest
      return (some content, rest)
    if n = 0xC0 then some (none, rest)
    else if 0xA0 ≤ n ∧ n < 0xC0 then do
      let (content, rest) ← take? (n - 0xA0) rest
      return (some content, rest)
    else if n = 0xC4 ∨ n = 0xD9 then sized 1
    else if n = 0xC5 ∨ n = 0xDA then sized 2
    else if n = 0xC6 ∨ n = 0xDB then sized 4
    else none

def flag? : List UInt8 → Option (Option Bool × List UInt8)
  | 0xC0 :: rest => some (none, rest)
  | 0xC2 :: rest => some (some false, rest)
  | 0xC3 :: rest => some (some true, rest)
  | _ => none

def mapSize? : List UInt8 → Option (Nat × List UInt8)
  | [] => none
  | b :: rest =>
    let n := b.toNat
    if 0x80 ≤ n ∧ n < 0x90 then some (n - 0x80, rest)
    else if n = 0xDE then number? 2 rest
    else if n = 0xDF then number? 4 rest
    else none

def arraySize? : List UInt8 → Option (Nat × List UInt8)
  | [] => none
  | b :: rest =>
    let n := b.toNat
    if 0x90 ≤ n ∧ n < 0xA0 then some (n - 0x90, rest)
    else if n = 0xDC then number? 2 rest
    else if n = 0xDD then number? 4 rest
    else none

def ofText (content : List UInt8) : List UInt8 :=
  let size := content.length
  (if size < 32 then [UInt8.ofNat (0xA0 + size)]
    else if size < 0x100 then 0xD9 :: ofNumber 1 size
    else if size < 0x10000 then 0xDA :: ofNumber 2 size
    else 0xDB :: ofNumber 4 size) ++ content

def ofFlag (value : Bool) : List UInt8 := [if value then 0xC3 else 0xC2]

end ScriptLoader.MessagePack
