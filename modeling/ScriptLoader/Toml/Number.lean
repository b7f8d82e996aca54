import ScriptLoader.Decimal.Shortest
import ScriptLoader.Json.Reader
import ScriptLoader.Toml.Basic
import ScriptLoader.Toml.Calendar

/-! Numbers and dates of TOML. A token is taken by the characters it may have and judged as a whole. -/

set_option autoImplicit false
namespace ScriptLoader.Toml

def isHex (c : Char) : Bool := (Text.hexValue? c).isSome

/-- Every underscore stands after a digit, and the text ends in one. -/
def underscoresFit (text : List Char) : Bool :=
  let rec fits (afterDigit : Bool) : List Char → Bool
    | [] => afterDigit
    | c :: rest => (c ≠ '_' || afterDigit) && fits (isHex c) rest
  fits false text

def unsigned : List Char → List Char
  | c :: rest => if c = '+' ∨ c = '-' then rest else c :: rest
  | [] => []

def hasLeadingZero (text : List Char) : Bool :=
  match unsigned text with
  | '0' :: d :: _ => !(unsigned text = text && ['b', 'o', 'x'].contains d)
  | _ => false

def baseOf : List Char → Nat × List Char
  | '0' :: 'x' :: rest => (16, rest)
  | '0' :: 'o' :: rest => (8, rest)
  | '0' :: 'b' :: rest => (2, rest)
  | digits => (10, digits)

def integerValue? (text : List Char) : Option Nat :=
  let (base, digits) := baseOf ((unsigned text).filter (· ≠ '_'))
  if digits.isEmpty then none
  else digits.foldlM (fun n c => (Text.hexValue? c).bind fun d => if d < base then some (n * base + d) else none) 0

/-- Integers have at most 64 bits. -/
def isInteger (text : List Char) : Bool :=
  underscoresFit text && !hasLeadingZero text &&
    match integerValue? text with
    | some n => n < 0x8000000000000000 || (n = 0x8000000000000000 && text.head? = some '-')
    | none => false

def floatParts (text : List Char) : List (List Char) :=
  ((Text.split '.' (text.map fun c => if c = 'e' ∨ c = 'E' then '.' else c)).filter (!·.isEmpty))

def isFloat (text : List Char) : Bool :=
  (floatParts text).all underscoresFit && !hasLeadingZero ((floatParts text).headD []) &&
    match Json.number? ((unsigned text).filter (· ≠ '_')) with
    | some (d, []) => d.toBinary64?.isSome
    | _ => false

def isDateChar (c : Char) : Bool := c.isDigit || "-:Tt .Zz+".toList.contains c

def isFloatChar (c : Char) : Bool := c.isDigit || "_.-+eE".toList.contains c

def judge (ok : Bool) (value : Value) (rest : List Char) : Option (Value × List Char) :=
  if ok then some (value, rest) else none

/-- A decimal integer or a float; `begun` are its first characters. -/
def decimal? (begun s : List Char) : Option (Value × List Char) :=
  let digits := begun ++ s.takeWhile fun c => c.isDigit || c = '_'
  let rest := s.dropWhile fun c => c.isDigit || c = '_'
  match rest with
  | c :: _ =>
    if c = '.' ∨ c = 'e' ∨ c = 'E' then
      judge (isFloat (digits ++ rest.takeWhile isFloatChar)) .float (rest.dropWhile isFloatChar)
    else judge (isInteger digits) .integer rest
  | [] => judge (isInteger digits) .integer []

def numberOrDate? (s : List Char) : Option (Value × List Char) :=
  let digits := s.takeWhile Char.isDigit
  let rest := s.dropWhile Char.isDigit
  match rest with
  | c :: _ =>
    if (c = '-' ∨ c = ':') ∧ digits ≠ ['0'] then
      judge (isDatetime (Text.trimEnd (· = ' ') (s.takeWhile isDateChar))) .datetime (s.dropWhile isDateChar)
    else if digits = ['0'] ∧ ['b', 'o', 'x'].contains c then
      let isDigit (d : Char) : Bool :=
        d = '_' || (if c = 'x' then isHex d else if c = 'o' then '0' ≤ d && d ≤ '7' else d = '0' || d = '1')
      let more := (rest.drop 1).takeWhile isDigit
      judge (more.head? ≠ some '_' && isInteger (digits ++ c :: more)) .integer ((rest.drop 1).dropWhile isDigit)
    else decimal? digits rest
  | [] => decimal? digits []

def signed? (sign : Char) (s : List Char) : Option (Value × List Char) :=
  match s with
  | 'i' :: 'n' :: 'f' :: rest => some (.float, rest)
  | 'n' :: 'a' :: 'n' :: rest => some (.float, rest)
  | d :: rest => if d.isDigit then decimal? [sign, d] rest else none
  | [] => none

end ScriptLoader.Toml
