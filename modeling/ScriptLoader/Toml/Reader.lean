import ScriptLoader.Text.Utf8
import ScriptLoader.Toml.Number

/-!
Reads TOML text into statements. Fuel bounds the depth of values and the number of pieces of a list; the
length of the text is enough.
-/

set_option autoImplicit false
namespace ScriptLoader.Toml

def isGap (c : Char) : Bool := c = ' ' || c = '\t'

def isLineEnd (c : Char) : Bool := c = '\n' || c = '\r'

def dropGap (s : List Char) : List Char := s.dropWhile isGap

def numbered? (width : Nat) (s : List Char) : Option (Char × List Char) :=
  let digits := s.take width
  if digits.length = width ∧ digits.all isHex then
    let n := digits.foldl (fun n c => n * 16 + (Text.hexValue? c).getD 0) 0
    if n < 0xD800 ∨ (0xDFFF < n ∧ n < 0x110000) then some (Char.ofNat n, s.drop width) else none
  else none

def escape? : List Char → Option (Char × List Char)
  | [] => none
  | c :: rest =>
    if c = 'b' then some ('\x08', rest)
    else if c = 't' then some ('\t', rest)
    else if c = 'n' then some ('\n', rest)
    else if c = 'f' then some ('\x0c', rest)
    else if c = 'r' then some ('\r', rest)
    else if c = '"' then some ('"', rest)
    else if c = '\\' then some ('\\', rest)
    else if c = 'u' then numbered? 4 rest
    else if c = 'U' then numbered? 8 rest
    else none

def basicString? : Nat → List Char → Option (List Char × List Char)
  | 0, _ => none
  | _ + 1, [] => none
  | fuel + 1, c :: rest =>
    if c = '"' then some ([], rest)
    else if isLineEnd c then none
    else if c = '\\' then do
      let (d, rest) ← escape? rest
      let (text, rest) ← basicString? fuel rest
      return (d :: text, rest)
    else (basicString? fuel rest).map fun (text, rest) => (c :: text, rest)

def literalString? : List Char → Option (List Char × List Char)
  | [] => none
  | c :: rest =>
    if c = '\'' then some ([], rest)
    else if isLineEnd c then none
    else (literalString? rest).map fun (text, rest) => (c :: text, rest)

/-- The quotes at the end of a string of several lines: three end it, and those before them belong to it.
There are at most `limit` in a row. -/
def closing? (quote : Char) (limit : Nat) (s : List Char) : Option (Option (List Char × List Char)) :=
  let count := (s.takeWhile (· = quote)).length
  if count < 3 then some none
  else if count ≤ limit then some (some (List.replicate (count - 3) quote, s.drop count))
  else none

def closingLimit : Nat := 5

/--
The rest of a string of several lines in double quotes. A backslash before the end of a line takes away all
white space that follows. After a written backslash one more quote may stand at the end, which is what `limit` tells.
-/
def multilineString? (limit : Nat) : Nat → List Char → Option (List Char × List Char)
  | 0, _ => none
  | _ + 1, [] => none
  | fuel + 1, c :: rest =>
    if c = '"' then
      match closing? '"' limit (c :: rest) with
      | none => none
      | some (some result) => some result
      | some none => (multilineString? closingLimit fuel rest).map fun (text, rest) => (c :: text, rest)
    else if c = '\\' then
      let white := rest.takeWhile fun d => isGap d || isLineEnd d
      if white.contains '\n' then multilineString? closingLimit fuel (rest.drop white.length)
      else do
        let limit := if rest.head? = some '\\' then closingLimit + 1 else closingLimit
        let (d, rest) ← escape? rest
        let (text, rest) ← multilineString? limit fuel rest
        return (d :: text, rest)
    else (multilineString? closingLimit fuel rest).map fun (text, rest) => (c :: text, rest)

def multilineLiteral? : List Char → Option (List Char × List Char)
  | [] => none
  | c :: rest =>
    if c = '\'' then
      match closing? '\'' closingLimit (c :: rest) with
      | none => none
      | some (some result) => some result
      | some none => (multilineLiteral? rest).map fun (text, rest) => (c :: text, rest)
    else (multilineLiteral? rest).map fun (text, rest) => (c :: text, rest)

def dropFirstLineEnd : List Char → List Char
  | '\n' :: rest => rest
  | '\r' :: '\n' :: rest => rest
  | s => s

def string? : List Char → Option (String × List Char)
  | '"' :: '"' :: '"' :: rest =>
    (multilineString? closingLimit (rest.length + 1) (dropFirstLineEnd rest)).map fun (text, rest) =>
    (String.ofList text, rest)
  | '\'' :: '\'' :: '\'' :: rest =>
    (multilineLiteral? (dropFirstLineEnd rest)).map fun (text, rest) => (String.ofList text, rest)
  | '"' :: rest => (basicString? (rest.length + 1) rest).map fun (text, rest) => (String.ofList text, rest)
  | '\'' :: rest => (literalString? rest).map fun (text, rest) => (String.ofList text, rest)
  | _ => none

def keyPart? : List Char → Option (String × List Char)
  | '"' :: rest => (basicString? (rest.length + 1) rest).map fun (text, rest) => (String.ofList text, rest)
  | '\'' :: rest => (literalString? rest).map fun (text, rest) => (String.ofList text, rest)
  | s =>
    let text := s.takeWhile isBare
    if text.isEmpty then none else some (String.ofList text, s.dropWhile isBare)

def key? : Nat → List Char → Option (Key × List Char)
  | 0, _ => none
  | fuel + 1, s => do
    let (part, rest) ← keyPart? (dropGap s)
    match dropGap rest with
    | '.' :: rest =>
      let (parts, rest) ← key? fuel rest
      return (part :: parts, rest)
    | rest => return ([part], rest)

def dropLines : Nat → List Char → List Char
  | 0, s => s
  | fuel + 1, s =>
    match s.dropWhile fun c => isGap c || isLineEnd c with
    | '#' :: rest => dropLines fuel (rest.dropWhile (!isLineEnd ·))
    | rest => rest

mutual

def value? : Nat → List Char → Option (Value × List Char)
  | 0, _ => none
  | fuel + 1, s =>
    match dropGap s with
    | [] => none
    | c :: rest =>
      if c = '[' then (items? fuel rest).map fun (items, rest) => (.array items, rest)
      else if c = '\x7b' then
        match dropGap rest with
        | '\x7d' :: rest => some (.inlineTable [], rest)
        | rest => (members? fuel rest).map fun (members, rest) => (.inlineTable members, rest)
      else if c = '"' ∨ c = '\'' then (string? (c :: rest)).map fun (text, rest) => (.string text, rest)
      else if c = '+' ∨ c = '-' then signed? c rest
      else if c.isDigit then numberOrDate? (c :: rest)
      else
        let word := (c :: rest).takeWhile Char.isAlpha
        let after := (c :: rest).dropWhile Char.isAlpha
        if word = "true".toList then some (.bool true, after)
        else if word = "false".toList then some (.bool false, after)
        else if "inf".toList.isPrefixOf word ∨ "nan".toList.isPrefixOf word then some (.float, rest.drop 2)
        else none

/-- The items of an array up to its bracket; a comma may follow the last. -/
def items? : Nat → List Char → Option (List Value × List Char)
  | 0, _ => none
  | fuel + 1, s =>
    match dropLines (s.length + 1) s with
    | ']' :: rest => some ([], rest)
    | s => do
      let (item, rest) ← value? fuel s
      match dropLines (rest.length + 1) rest with
      | ']' :: rest => return ([item], rest)
      | ',' :: rest =>
        let (items, rest) ← items? fuel rest
        return (item :: items, rest)
      | _ => none

/-- The members of an inline table up to its brace, on one line; no comma follows the last. -/
def members? : Nat → List Char → Option (List (Key × Value) × List Char)
  | 0, _ => none
  | fuel + 1, s => do
    let (key, rest) ← key? (s.length + 1) s
    match rest with
    | '=' :: rest =>
      let (value, rest) ← value? fuel rest
      match dropGap rest with
      | '\x7d' :: rest => return ([(key, value)], rest)
      | ',' :: rest =>
        let (members, rest) ← members? fuel rest
        return ((key, value) :: members, rest)
      | _ => none
    | _ => none

end

def lineRest? (s : List Char) : Option (List Char) :=
  match dropGap s with
  | [] => some []
  | c :: rest =>
    if c = '#' then some (rest.dropWhile (!isLineEnd ·)) else if isLineEnd c then some rest else none

def statement? (s : List Char) : Option (Statement × List Char) :=
  match s with
  | '[' :: '[' :: rest => do
    match ← key? (rest.length + 1) rest with
    | (key, ']' :: ']' :: rest) => return (.tableElement key, rest)
    | _ => none
  | '[' :: rest => do
    match ← key? (rest.length + 1) rest with
    | (key, ']' :: rest) => return (.table key, rest)
    | _ => none
  | s => do
    match ← key? (s.length + 1) s with
    | (key, '=' :: rest) =>
      let (value, rest) ← value? (rest.length + 1) rest
      return (.pair key value, rest)
    | _ => none

def statements? : Nat → List Char → Option (List Statement)
  | 0, _ => none
  | fuel + 1, s =>
    match dropLines (s.length + 1) s with
    | [] => some []
    | s => do
      let (statement, rest) ← statement? s
      let rest ← lineRest? rest
      return statement :: (← statements? fuel rest)

/-- No controls but tabs and line ends, and a carriage return only before a line feed. -/
def isPlainText : List Char → Bool
  | [] => true
  | '\r' :: '\n' :: rest => isPlainText rest
  | c :: rest => (c = '\t' || c = '\n' || (0x20 ≤ c.toNat && c.toNat ≠ 0x7F)) && isPlainText rest

def dropMark : List UInt8 → List UInt8
  | 0xEF :: 0xBB :: 0xBF :: rest => rest
  | 0xFF :: 0xFE :: rest => rest
  | 0xFE :: 0xFF :: rest => rest
  | bytes => bytes

def read? (bytes : List UInt8) : Option (List Statement) := do
  let text ← Text.Utf8.decode? (dropMark bytes)
  if isPlainText text.toList then statements? (text.length + 1) text.toList else none

end ScriptLoader.Toml
