import ScriptLoader.Text.Basic

/-!
Package files: JSON objects of which only the member `type` counts. What other members hold is passed
over by its brackets and quotes alone, without a look at whether it is well formed. The file is read
letter by letter, each byte as one letter, and ends before the first zero byte.

Names match without regard to case. Escapes in a name are read one letter at a time: one that stands for
no character makes the letter after it be passed over as well, and a name that stops short of `type` still
counts when it is written with at least as many letters.
-/

set_option autoImplicit false
namespace ScriptLoader.PackageFile

def isBlank (c : Char) : Bool := c = ' ' || c = '\n' || c = '\t' || c = '\r'

def maxDepth : Nat := 10000

def skipString? : List Char → Option (List Char)
  | [] => none
  | '"' :: rest => some rest
  | '\\' :: _ :: rest => skipString? rest
  | _ :: rest => skipString? rest

/-- What follows the end of an object or an array. Brackets of its own kind are counted, of which `count` are
open; `depth` takes in those of both kinds. -/
def skipNested? (opening closing : Char) : Bool → Nat → Int → List Char → Option (List Char)
  | _, _, _, [] => none
  | true, count, depth, '\\' :: _ :: rest => skipNested? opening closing true count depth rest
  | true, count, depth, c :: rest => skipNested? opening closing (c ≠ '"') count depth rest
  | false, count, depth, c :: rest =>
    if c = '"' then skipNested? opening closing true count depth rest
    else if c = '\x7b' ∨ c = '[' then
      if maxDepth < depth + 1 then none
      else skipNested? opening closing false (if c = opening then count + 1 else count) (depth + 1) rest
    else if c = closing ∧ count ≤ 1 then some rest
    else if c = '\x7d' ∨ c = ']' then
      skipNested? opening closing false (if c = closing then count - 1 else count) (depth - 1) rest
    else skipNested? opening closing false count depth rest

def isNumberLetter (c : Char) : Bool := c.isDigit || c = '.' || c = 'e' || c = 'E' || c = '+' || c = '-'

def skipValue? (s : List Char) : Option (List Char) :=
  match s.dropWhile isBlank with
  | [] => none
  | c :: rest =>
    if c = '\x7b' then skipNested? '\x7b' '\x7d' false 1 2 rest
    else if c = '[' then skipNested? '[' ']' false 1 2 rest
    else if c = '"' then skipString? rest
    else if c = '-' ∨ c.isDigit then some (rest.dropWhile isNumberLetter)
    else
      let word (w : String) : Option (List Char) := Text.after? w.toList (c :: rest)
      (word "true").or ((word "false").or (word "null"))

/-- The number that four letters write; a letter that is no digit counts as zero. -/
def fourDigits (a b c d : Char) : Nat :=
  let digit (x : Char) : Nat := (Text.hexValue? x).getD 0
  ((digit a * 16 + digit b) * 16 + digit c) * 16 + digit d

def isEscape (c : Char) : Bool := "\"\\/bfnrt".toList.contains c

def nameOfType : List Char := ['t', 'y', 'p', 'e']

/-- Reads a name from behind its opening quote on: whether it counts as `type`, and what follows it. `left` is
what must still come, and `size` the number of letters read. -/
def name? : List Char → Nat → List Char → Option (Bool × List Char)
  | _, _, [] => none
  | _, size, '"' :: rest => some (nameOfType.length ≤ size, rest)
  | left, size, '\\' :: 'u' :: a :: b :: c :: d :: rest =>
    if left.head? = some (Char.ofNat (fourDigits a b c d)).toLower then name? left.tail (size + 6) rest
    else (skipString? (a :: b :: c :: d :: rest)).map fun rest => (false, rest)
  | left, size, '\\' :: e :: next :: rest =>
    if isEscape e ∨ e = 'u' then (skipString? (next :: rest)).map fun rest => (false, rest)
    else name? left (size + 3) rest
  | _, _, ['\\', _] => none
  | left, size, c :: rest =>
    if left.head? = some c.toLower then name? left.tail (size + 1) rest
    else (skipString? rest).map fun rest => (false, rest)

/-- The character of a letter after a backslash; letters without one become zero. -/
def escaped (c : Char) : Char :=
  match c with
  | '"' => '"'
  | '\\' => '\\'
  | '/' => '/'
  | 'b' => '\x08'
  | 'f' => '\x0c'
  | 'n' => '\n'
  | 'r' => '\r'
  | 't' => '\t'
  | _ => '\x00'

def string? : List Char → Option (List Char × List Char)
  | [] => none
  | '"' :: rest => some ([], rest)
  | '\\' :: 'u' :: a :: b :: c :: d :: rest =>
    if [a, b, c, d].all fun x => (Text.hexValue? x).isSome then
      (string? rest).map fun (body, rest) => (Char.ofNat (fourDigits a b c d) :: body, rest)
    else none
  | '\\' :: 'u' :: _ => none
  | '\\' :: e :: rest => (string? rest).map fun (body, rest) => (escaped e :: body, rest)
  | c :: rest => (string? rest).map fun (body, rest) => (c :: body, rest)

def typeValue? (held s : List Char) : Option (List Char × List Char) :=
  match s.dropWhile isBlank with
  | '"' :: rest => string? rest
  | s => (Text.after? "null".toList s).map fun rest => (held, rest)

/-- The name at the beginning of a text: whether it counts, and what follows it. The empty name does not. -/
def member? (s : List Char) : Option (Bool × List Char) :=
  match s.dropWhile isBlank with
  | '"' :: '"' :: rest => some (false, rest)
  | '"' :: rest => name? nameOfType 0 rest
  | _ => none

/-- Reads members up to the closing brace: the last type, and what follows the brace. The fuel bounds the
number of members. -/
def members? : Nat → List Char → List Char → Option (List Char × List Char)
  | 0, _, _ => none
  | fuel + 1, held, s => do
    let (counts, rest) ← member? s
    let ':' :: rest := rest.dropWhile isBlank | none
    let (held, rest) ← if counts then typeValue? held rest else (skipValue? rest).map fun rest => (held, rest)
    match rest.dropWhile isBlank with
    | '\x7d' :: rest => some (held, rest)
    | ',' :: rest => members? fuel held rest
    | _ => none

def value? (s : List Char) : Option (List Char × List Char) :=
  match s.dropWhile isBlank with
  | '\x7b' :: rest =>
    match rest.dropWhile isBlank with
    | '\x7d' :: rest => some ([], rest)
    | rest => members? (rest.length + 1) [] rest
  | s => (Text.after? "null".toList s).map fun rest => ([], rest)

def letters (content : List UInt8) : List Char :=
  (content.map fun b => Char.ofNat b.toNat).takeWhile (· ≠ '\x00')

/-- Whether a package file says that its scripts are modules. A file that cannot be read so far says nothing. -/
def declaresModule (content : List UInt8) : Bool :=
  match value? (letters content) with
  | some (type, rest) => type = "module".toList && rest.all isBlank
  | none => false

end ScriptLoader.PackageFile
