/-!
Text as bytes. What enters from outside need not be well formed: a byte that belongs to no character is
kept as a stray, one of 128 reserved characters that stand for such bytes, so that `encode` gives back the
bytes that `decode` was given. The reserved characters themselves are taken apart into bytes.
-/

set_option autoImplicit false
namespace ScriptLoader.Text.Utf8

def replacement : Char := '�'

def isTail (b : UInt8) : Bool := 0x80 ≤ b && b ≤ 0xBF

def tailBits (b : UInt8) : Nat := b.toNat % 0x40

/-- Reads one well-formed character: no overlong form, no surrogate, nothing above U+10FFFF. -/
def read? : List UInt8 → Option (Char × List UInt8)
  | [] => none
  | a :: r =>
    if a < 0x80 then some (Char.ofNat a.toNat, r)
    else if a < 0xC2 then none
    else match r with
      | [] => none
      | b :: r =>
        if a < 0xE0 then
          if isTail b then some (Char.ofNat ((a.toNat - 0xC0) * 0x40 + tailBits b), r) else none
        else match r with
          | [] => none
          | c :: r =>
            if a < 0xF0 then
              if isTail b && isTail c && !(a == 0xE0 && b < 0xA0) && !(a == 0xED && b > 0x9F) then
                some (Char.ofNat ((a.toNat - 0xE0) * 0x1000 + tailBits b * 0x40 + tailBits c), r)
              else none
            else match r with
              | [] => none
              | d :: r =>
                if a < 0xF5 && isTail b && isTail c && isTail d
                    && !(a == 0xF0 && b < 0x90) && !(a == 0xF4 && b > 0x8F) then
                  some (Char.ofNat
                    ((a.toNat - 0xF0) * 0x40000 + tailBits b * 0x1000 + tailBits c * 0x40 + tailBits d), r)
                else none

theorem length_lt_of_read? {bytes rest : List UInt8} {c : Char} (h : read? bytes = some (c, rest)) :
    rest.length < bytes.length := by
  unfold read? at h
  split at h
  · simp at h
  · split at h
    · simp at h; obtain ⟨-, rfl⟩ := h; simp
    · repeat' split at h
      all_goals simp at h
      all_goals (obtain ⟨-, rfl⟩ := h; simp; try omega)

/-- The number of the character that stands for the byte zero; only bytes from 0x80 on are ever kept so. -/
def firstStray : Nat := 0x10DC00

def stray (b : UInt8) : Char := Char.ofNat (firstStray + b.toNat)

def isStray (c : Char) : Bool := firstStray + 0x80 ≤ c.toNat && c.toNat < firstStray + 0x100

/-- The characters of a byte string, and strays for the bytes that belong to none. -/
def decodeChars : List UInt8 → List Char
  | [] => []
  | a :: r =>
    match h : read? (a :: r) with
    | some (c, rest) => if isStray c then stray a :: decodeChars r else c :: decodeChars rest
    | none => stray a :: decodeChars r
  termination_by bytes => bytes.length
  decreasing_by
    · simp
    · exact length_lt_of_read? h
    · simp

def isWellFormed : List UInt8 → Bool
  | [] => true
  | a :: r =>
    match h : read? (a :: r) with
    | some (_, rest) => isWellFormed rest
    | none => false
  termination_by bytes => bytes.length
  decreasing_by exact length_lt_of_read? h

def decode (bytes : List UInt8) : String := String.ofList (decodeChars bytes)

def decode? (bytes : List UInt8) : Option String := if isWellFormed bytes then some (decode bytes) else none

def encodeChar (c : Char) : List UInt8 :=
  if isStray c then [UInt8.ofNat (c.toNat - firstStray)] else String.utf8EncodeChar c

def encode (s : String) : List UInt8 := s.toList.flatMap encodeChar

def size (s : String) : Nat := (encode s).length

def shownChar (c : Char) : Char := if isStray c then replacement else c

/-- A text as it is seen, with `replacement` for each stray. -/
def shown (s : String) : String := String.ofList (s.toList.map shownChar)

end ScriptLoader.Text.Utf8
