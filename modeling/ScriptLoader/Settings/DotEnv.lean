import ScriptLoader.Fields
import ScriptLoader.Text.Blank
import ScriptLoader.Text.Utf8

/-!
Files of environment variables: lines `NAME=value` or `NAME: value`, with comments, quotes and references
to variables that were set before.
-/

set_option autoImplicit false
namespace ScriptLoader.DotEnv

def isGap (c : Char) : Bool :=
  c = '\t' || c.toNat = 0x0B || c.toNat = 0x0C || c = '\r' || c = ' ' || c.toNat = 0x85 || c.toNat = 0xA0

def isLineEnd (c : Char) : Bool := c = '\n' || c = '\r'

def start : Nat → List Char → List Char
  | 0, s => s
  | fuel + 1, s =>
    match s.dropWhile Text.isBlank with
    | '#' :: rest => start fuel (rest.dropWhile (· ≠ '\n'))
    | rest => rest

def dropExport (s : List Char) : List Char :=
  match Text.after? "export".toList s with
  | some (c :: rest) => if isGap c then rest.dropWhile isGap else s
  | _ => s

/-- Bytes of names, each read as a character of its own: letters, digits, underscore, dot and gaps. -/
def isNameByte (b : UInt8) : Bool :=
  let n := b.toNat
  (0x30 ≤ n && n ≤ 0x39) || (0x41 ≤ n && n ≤ 0x5A) || (0x61 ≤ n && n ≤ 0x7A) || n = 0x5F || n = 0x2E ||
    n = 0x09 || n = 0x0B || n = 0x0C || n = 0x0D || n = 0x20 || n = 0x85 || n = 0xA0 ||
    [0xAA, 0xB2, 0xB3, 0xB5, 0xB9, 0xBA, 0xBC, 0xBD, 0xBE].contains n ||
    (0xC0 ≤ n && n ≠ 0xD7 && n ≠ 0xF7)

def isNameChar (c : Char) : Bool := (Text.Utf8.encodeChar c).all isNameByte

/-- The name of a statement and what follows its sign. A text that ends before the sign has the empty name and
is all value. -/
def name? (s : List Char) : Option (String × List Char) :=
  let s := dropExport s
  match s.dropWhile isNameChar with
  | [] => if s.isEmpty then none else some ("", s)
  | c :: rest =>
    if c = '=' ∨ c = ':' then
      some (String.ofList (Text.trimEnd Text.isBlank (s.takeWhile isNameChar)), rest.dropWhile isGap)
    else none

def isVariableChar (c : Char) : Bool := c.isUpper || c.isDigit || c = '_'

def dropOne (c : Char) : List Char → List Char
  | d :: rest => if c = d then rest else d :: rest
  | [] => []

def reference (s : List Char) : List Char × List Char :=
  let s := dropOne '\x7b' (dropOne '(' s)
  (s.takeWhile isVariableChar, dropOne '\x7d' (s.dropWhile isVariableChar))

/-- Puts the values of variables in the place of references. A backslash keeps a reference as it is, and a
dollar sign without a name stays. -/
def expand (defined : Fields String) : Nat → List Char → List Char
  | 0, s => s
  | _ + 1, [] => []
  | fuel + 1, c :: rest =>
    if c = '\\' ∧ rest.head? = some '$' then
      let (_, after) := reference (rest.drop 1)
      rest.take (rest.length - after.length) ++ expand defined fuel after
    else if c = '$' then
      let (name, after) := reference rest
      if name.isEmpty then c :: rest.take (rest.length - after.length) ++ expand defined fuel after
      else ((defined.get? (String.ofList name)).getD "").toList ++ expand defined fuel after
    else c :: expand defined fuel rest

def expandLineEnds : List Char → List Char
  | '\\' :: c :: rest =>
    if c = 'n' then '\n' :: expandLineEnds rest
    else if c = 'r' then '\r' :: expandLineEnds rest
    else '\\' :: c :: expandLineEnds rest
  | c :: rest => c :: expandLineEnds rest
  | [] => []

def dropEscapes : List Char → List Char
  | '\\' :: c :: rest => if c = '$' then '\\' :: dropEscapes (c :: rest) else c :: dropEscapes rest
  | c :: rest => c :: dropEscapes rest
  | [] => []

/-- A value in quotes up to its closing quote, which no backslash precedes; `last` is the character before. -/
def quotedBody? (quote last : Char) : List Char → Option (List Char × List Char)
  | [] => none
  | c :: rest =>
    if c = quote ∧ last ≠ '\\' then some ([], rest)
    else (quotedBody? quote c rest).map fun (body, rest) => (c :: body, rest)

/-- A value without quotes ends before a gap and a number sign; of several such places the last counts. -/
def dropComment (line : List Char) : List Char :=
  let rec cutFrom : List Char → Option (List Char)
    | c :: d :: rest =>
      match cutFrom (d :: rest) with
      | some kept => some (c :: kept)
      | none => if isGap c ∧ d = '#' then some [c] else none
    | _ => none
  (cutFrom line).getD line

/-- The value of a statement and what follows it. Bytes that belong to no character are kept in quotes alone. -/
def value? (defined : Fields String) (s : List Char) : Option (String × List Char) :=
  let unquoted : String × List Char :=
    let line := Text.trim isGap (dropComment ((s.takeWhile (!isLineEnd ·)).map Text.Utf8.shownChar))
    (String.ofList (expand defined (line.length + 1) line), s.dropWhile (!isLineEnd ·))
  match s with
  | [] => some unquoted
  | quote :: rest =>
    if quote = '"' ∨ quote = '\'' then do
      let (body, rest) ← quotedBody? quote quote rest
      let body := Text.trim (· = quote) body
      if quote = '"' then
        let body := dropEscapes (expandLineEnds body)
        return (String.ofList (expand defined (body.length + 1) body), rest)
      else return (String.ofList body, rest)
    else some unquoted

def statements? : Nat → Fields String → List Char → Option (Fields String)
  | 0, defined, _ => some defined
  | fuel + 1, defined, s =>
    match start (s.length + 1) s with
    | [] => some defined
    | s => do
      let (name, rest) ← name? (s.dropWhile isGap)
      let (value, rest) ← value? defined rest
      statements? fuel (defined.insert name value) rest

def read? (content : List UInt8) : Option (Fields String) :=
  let text := Text.replace (Text.Utf8.decode content) "\r\n" "\n"
  statements? (text.length + 1) [] text.toList

end ScriptLoader.DotEnv
