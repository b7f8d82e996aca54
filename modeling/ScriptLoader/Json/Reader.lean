import ScriptLoader.Json.Basic
import ScriptLoader.Text.Utf8

/-!
Reading JSON text. Two dialects are read: plain JSON, and JSON with comments and a comma allowed after
the last element, in which configuration files are written.
-/

set_option autoImplicit false
namespace ScriptLoader.Json

/-- What is allowed beyond plain JSON, and whether names of members stay as they are written, with their escapes. -/
structure Dialect where
  comments : Bool
  trailingCommas : Bool
  writtenNames : Bool := false

def Dialect.plain : Dialect := ⟨false, false, false⟩

def Dialect.lenient : Dialect := ⟨true, true, true⟩

def isBlank (c : Char) : Bool := c = ' ' || c = '\t' || c = '\r' || c = '\n'

def skipLine? : List Char → Option (List Char)
  | [] => none
  | c :: rest =>
    if c = '\n' then some rest else if Text.Utf8.isStray c then none else skipLine? rest

def skipBlock? : List Char → Option (List Char)
  | [] => none
  | '*' :: '/' :: rest => some rest
  | c :: rest => if Text.Utf8.isStray c then none else skipBlock? rest

/-- Drops blanks and comments; `none` for a comment without an end. The fuel is the text's length. -/
def skip? (dialect : Dialect) : Nat → List Char → Option (List Char)
  | 0, s => some s
  | _ + 1, [] => some []
  | fuel + 1, c :: rest =>
    if isBlank c then skip? dialect fuel rest
    else if dialect.comments && c = '/' then
      match rest with
      | '/' :: rest => (skipLine? rest).bind (skip? dialect fuel)
      | '*' :: rest => (skipBlock? rest).bind (skip? dialect fuel)
      | _ => none
    else some (c :: rest)

def fourHex? : List Char → Option (Nat × List Char)
  | a :: b :: c :: d :: rest => do
    let a ← Text.hexValue? a
    let b ← Text.hexValue? b
    let c ← Text.hexValue? c
    let d ← Text.hexValue? d
    return (a * 0x1000 + b * 0x100 + c * 0x10 + d, rest)
  | _ => none

def isHighSurrogate (n : Nat) : Bool := 0xD800 ≤ n && n < 0xDC00

def isLowSurrogate (n : Nat) : Bool := 0xDC00 ≤ n && n < 0xE000

/-- The character of a `\u` escape and what follows it. Two escapes that form a surrogate pair make one
character, a lone surrogate makes the replacement character. -/
def unicodeEscape? (s : List Char) : Option (Char × List Char) := do
  let (high, rest) ← fourHex? s
  if isHighSurrogate high then
    match rest with
    | '\\' :: 'u' :: more =>
      match fourHex? more with
      | some (low, rest') =>
        if isLowSurrogate low then
          some (Char.ofNat (0x10000 + (high - 0xD800) * 0x400 + (low - 0xDC00)), rest')
        else some (Text.Utf8.replacement, rest)
      | none => some (Text.Utf8.replacement, rest)
    | _ => some (Text.Utf8.replacement, rest)
  else if isLowSurrogate high then some (Text.Utf8.replacement, rest)
  else some (Char.ofNat high, rest)

def plainEscape? (c : Char) : Option Char :=
  match c with
  | '"' => some '"'
  | '\\' => some '\\'
  | '/' => some '/'
  | 'b' => some '\x08'
  | 'f' => some '\x0c'
  | 'n' => some '\n'
  | 'r' => some '\r'
  | 't' => some '\t'
  | _ => none

def stringBody? : Nat → List Char → Option (List Char × List Char)
  | 0, _ => none
  | _ + 1, [] => none
  | fuel + 1, c :: rest =>
    if c = '"' then some ([], rest)
    else if c = '\\' then
      match rest with
      | [] => none
      | 'u' :: rest => do
        let (character, rest) ← unicodeEscape? rest
        let (body, rest) ← stringBody? fuel rest
        return (character :: body, rest)
      | e :: rest => do
        let character ← plainEscape? e
        let (body, rest) ← stringBody? fuel rest
        return (character :: body, rest)
    else if c.toNat < 0x20 then none
    else do
      let (body, rest) ← stringBody? fuel rest
      return (c :: body, rest)

def string? (s : List Char) : Option (String × List Char) :=
  (stringBody? (s.length + 1) s).map fun (body, rest) => (String.ofList body, rest)

def digits (s : List Char) : List Char × List Char := s.span Char.isDigit

def natural (s : List Char) : Nat := s.foldl (fun n c => n * 10 + (c.toNat - '0'.toNat)) 0

def integerPart? (s : List Char) : Option (List Char × List Char) :=
  match digits s with
  | ([], _) => none
  | ('0' :: _ :: _, _) => none
  | (whole, rest) => some (whole, rest)

def fractionPart? : List Char → Option (List Char × List Char)
  | '.' :: rest =>
    match digits rest with
    | ([], _) => none
    | (fraction, rest) => some (fraction, rest)
  | rest => some ([], rest)

def exponentDigits? (negative : Bool) (s : List Char) : Option (Int × List Char) :=
  match digits s with
  | ([], _) => none
  | (exponent, rest) =>
    let magnitude : Int := natural exponent
    some (if negative then -magnitude else magnitude, rest)

def exponentPart? : List Char → Option (Int × List Char)
  | [] => some (0, [])
  | e :: rest =>
    if e = 'e' ∨ e = 'E' then
      match rest with
      | '+' :: rest => exponentDigits? false rest
      | '-' :: rest => exponentDigits? true rest
      | rest => exponentDigits? false rest
    else some (0, e :: rest)

def number? (s : List Char) : Option (Decimal × List Char) := do
  let (negative, rest) := match s with
    | '-' :: rest => (true, rest)
    | rest => (false, rest)
  let (whole, rest) ← integerPart? rest
  let (fraction, rest) ← fractionPart? rest
  let (exponent, rest) ← exponentPart? rest
  return (⟨negative, natural (whole ++ fraction), exponent - fraction.length⟩, rest)

mutual

/-- One value and what follows it. The fuel bounds the number of nested readings; the text's length is enough. -/
def value? (dialect : Dialect) : Nat → List Char → Option (Json × List Char)
  | 0, _ => none
  | _ + 1, [] => none
  | fuel + 1, c :: rest =>
    match c with
    | '"' => (string? rest).map fun (text, rest) => (.string text, rest)
    | '[' => do
      let rest ← skip? dialect rest.length rest
      match rest with
      | ']' :: rest => some (.array [], rest)
      | rest =>
        let (items, rest) ← items? dialect fuel rest
        return (.array items, rest)
    | '{' => do
      let rest ← skip? dialect rest.length rest
      match rest with
      | '}' :: rest => some (.object [], rest)
      | rest =>
        let (members, rest) ← members? dialect fuel rest
        return (.object members, rest)
    | _ =>
      match Text.after? ['t', 'r', 'u', 'e'] (c :: rest), Text.after? ['f', 'a', 'l', 's', 'e'] (c :: rest),
        Text.after? ['n', 'u', 'l', 'l'] (c :: rest) with
      | some rest, _, _ => some (.bool true, rest)
      | _, some rest, _ => some (.bool false, rest)
      | _, _, some rest => some (.null, rest)
      | none, none, none => (number? (c :: rest)).map fun (value, rest) => (.number value, rest)

def items? (dialect : Dialect) : Nat → List Char → Option (List Json × List Char)
  | 0, _ => none
  | fuel + 1, s => do
    let (item, rest) ← value? dialect fuel s
    let rest ← skip? dialect rest.length rest
    match rest with
    | ']' :: rest => some ([item], rest)
    | ',' :: rest =>
      let rest ← skip? dialect rest.length rest
      match rest with
      | ']' :: rest => if dialect.trailingCommas then some ([item], rest) else none
      | rest =>
        let (items, rest) ← items? dialect fuel rest
        return (item :: items, rest)
    | _ => none

def members? (dialect : Dialect) : Nat → List Char → Option (List (String × Json) × List Char)
  | 0, _ => none
  | fuel + 1, s =>
    match s with
    | '"' :: opened => do
      let (name, rest) ← string? opened
      let name := if dialect.writtenNames then String.ofList (opened.take (opened.length - rest.length - 1)) else name
      let rest ← skip? dialect rest.length rest
      match rest with
      | ':' :: rest =>
        let rest ← skip? dialect rest.length rest
        let (value, rest) ← value? dialect fuel rest
        let rest ← skip? dialect rest.length rest
        match rest with
        | '}' :: rest => some ([(name, value)], rest)
        | ',' :: rest =>
          let rest ← skip? dialect rest.length rest
          match rest with
          | '}' :: rest => if dialect.trailingCommas then some ([(name, value)], rest) else none
          | rest =>
            let (members, rest) ← members? dialect fuel rest
            return ((name, value) :: members, rest)
        | _ => none
      | _ => none
    | _ => none

end

def parse? (dialect : Dialect) (text : String) : Option Json := do
  let s := text.toList
  let rest ← skip? dialect s.length s
  let (value, rest) ← value? dialect (s.length + 1) rest
  let rest ← skip? dialect rest.length rest
  if rest.isEmpty then some value else none

def readName (written : String) : String := ((string? (written.toList ++ ['"'])).map (·.1)).getD written

mutual

/-- A value whose names are read, after a reader left them as they are written. -/
def readNames : Json → Json
  | .array items => .array (readItemNames items)
  | .object members => .object (readMemberNames members)
  | value => value

def readItemNames : List Json → List Json
  | [] => []
  | item :: rest => readNames item :: readItemNames rest

def readMemberNames : List (String × Json) → List (String × Json)
  | [] => []
  | (name, value) :: rest => (readName name, readNames value) :: readMemberNames rest

end

end ScriptLoader.Json
