/-! Splitting, joining and trimming of text, as functions on lists of characters with `String` faces. -/

set_option autoImplicit false
namespace ScriptLoader.Text

/-- The pieces between separators; there is always one more piece than there are separators. -/
def split {α : Type} [DecidableEq α] (separator : α) : List α → List (List α)
  | [] => [[]]
  | c :: rest =>
    if c = separator then [] :: split separator rest
    else match split separator rest with
      | [] => [[c]]
      | piece :: pieces => (c :: piece) :: pieces

def pieces (s : String) (separator : Char) : List String :=
  (split separator s.toList).map String.ofList

def startsWith (s beginning : String) : Bool := beginning.toList.isPrefixOf s.toList

def endsWith (s ending : String) : Bool := ending.toList.isSuffixOf s.toList

def after? (beginning s : List Char) : Option (List Char) :=
  match beginning, s with
  | [], rest => some rest
  | _ :: _, [] => none
  | b :: bs, c :: cs => if b = c then after? bs cs else none

def trimStart (blank : Char → Bool) (s : List Char) : List Char := s.dropWhile blank

def trimEnd (blank : Char → Bool) (s : List Char) : List Char := (s.reverse.dropWhile blank).reverse

def trim (blank : Char → Bool) (s : List Char) : List Char := trimEnd blank (trimStart blank s)

def contains (needle : List Char) : List Char → Bool
  | [] => needle.isEmpty
  | c :: rest => needle.isPrefixOf (c :: rest) || contains needle rest

def cut? (needle : List Char) : List Char → Option (List Char × List Char)
  | [] => if needle.isEmpty then some ([], []) else none
  | c :: rest =>
    match after? needle (c :: rest) with
    | some tail => some ([], tail)
    | none => (cut? needle rest).map fun (before, tail) => (c :: before, tail)

/-- Replaces each occurrence of `needle`, found from the left and not overlapping. The fuel is the text's length. -/
def replaceFrom (needle replacement : List Char) : Nat → List Char → List Char
  | 0, s => s
  | fuel + 1, s =>
    match cut? needle s with
    | none => s
    | some (before, tail) => before ++ replacement ++ replaceFrom needle replacement fuel tail

def replace (s needle replacement : String) : String :=
  if needle.isEmpty then s
  else String.ofList (replaceFrom needle.toList replacement.toList (s.length + 1) s.toList)

def fill (c : Char) (n : Nat) : String := String.ofList (List.replicate n c)

def padLeft (width : Nat) (s : String) : String := fill ' ' (width - s.length) ++ s

def padRight (width : Nat) (s : String) : String := s ++ fill ' ' (width - s.length)

/-- Lower case of the letters A to Z; names of options, keywords and schemes have no others. -/
def lowerAscii (s : String) : String := String.ofList (s.toList.map Char.toLower)

def truth? (s : String) : Option Bool :=
  if ["1", "t", "T", "TRUE", "true", "True"].contains s then some true
  else if ["0", "f", "F", "FALSE", "false", "False"].contains s then some false
  else none

def hexDigit (n : Nat) : Char := (Nat.digitChar n)

def hex (width n : Nat) : String :=
  let digits := Nat.toDigits 16 n
  String.ofList (List.replicate (width - digits.length) '0' ++ digits)

def hexValue? (c : Char) : Option Nat :=
  if '0' ≤ c ∧ c ≤ '9' then some (c.toNat - '0'.toNat)
  else if 'a' ≤ c ∧ c ≤ 'f' then some (c.toNat - 'a'.toNat + 10)
  else if 'A' ≤ c ∧ c ≤ 'F' then some (c.toNat - 'A'.toNat + 10)
  else none

def bytesOfHex : List Char → List UInt8
  | a :: b :: rest => UInt8.ofNat ((hexValue? a).getD 0 * 16 + (hexValue? b).getD 0) :: bytesOfHex rest
  | _ => []

def hexOfBytes (bytes : List UInt8) : String := String.join (bytes.map fun b => hex 2 b.toNat)

end ScriptLoader.Text
