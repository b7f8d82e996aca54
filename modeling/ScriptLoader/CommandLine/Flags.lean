import ScriptLoader.Decimal.Integer
import ScriptLoader.Text.Quoted

/-!
Flags among the arguments of a command: `--name value`, `--name=value`, and one dash with letters for the
flags that have one. A switch takes a value only after an equals sign.
-/

set_option autoImplicit false
namespace ScriptLoader.CommandLine

inductive FlagKind where
  | text
  | switch
  | number
  deriving DecidableEq, Repr

structure Flag where
  name : String
  letter : Option Char := none
  kind : FlagKind := .text
  deriving DecidableEq, Repr

inductive FlagError where
  | malformed (argument : String)
  | unknown (name : String)
  /-- A letter that is no flag, and all letters from it on. -/
  | unknownLetter (letter : Char) (letters : String)
  | missingValue (name : String)
  | missingLetterValue (letter : Char) (letters : String)
  | badValue (flag : Flag) (value reason : String)
  deriving DecidableEq, Repr

namespace Flag

def shown (flag : Flag) : String :=
  match flag.letter with
  | some letter => "-" ++ String.singleton letter ++ ", --" ++ flag.name
  | none => "--" ++ flag.name

def bareValue? (flag : Flag) : Option String := if flag.kind = .switch then some "true" else none

def valueProblem? (flag : Flag) (value : String) : Option String :=
  match flag.kind with
  | .text => none
  | .switch =>
    if (Text.truth? value).isSome then none
    else some ("strconv.ParseBool: parsing " ++ Text.quoted value ++ ": invalid syntax")
  | .number =>
    match IntegerText.parse value with
    | .ok _ => none
    | .error .malformed => some ("strconv.ParseInt: parsing " ++ Text.quoted value ++ ": invalid syntax")
    | .error .outOfRange => some ("strconv.ParseInt: parsing " ++ Text.quoted value ++ ": value out of range")

def assign (flag : Flag) (value : String) : Except FlagError (String × String) :=
  match flag.valueProblem? value with
  | some reason => .error (.badValue flag value reason)
  | none => .ok (flag.name, value)

def named? (flags : List Flag) (name : String) : Option Flag := flags.find? (·.name = name)

def lettered? (flags : List Flag) (letter : Char) : Option Flag := flags.find? (·.letter = some letter)

end Flag

def FlagError.message : FlagError → String
  | .malformed argument => "bad flag syntax: " ++ argument
  | .unknown name => "unknown flag: --" ++ name
  | .unknownLetter letter letters => "unknown shorthand flag: " ++ Text.quotedChar letter ++ " in -" ++ letters
  | .missingValue name => "flag needs an argument: --" ++ name
  | .missingLetterValue letter letters => "flag needs an argument: " ++ Text.quotedChar letter ++ " in -" ++ letters
  | .badValue flag value reason =>
    "invalid argument " ++ Text.quoted value ++ " for " ++ Text.quoted flag.shown ++ " flag: " ++ reason

structure Arguments where
  set : List (String × String) := []
  words : List String := []
  deriving DecidableEq, Repr

namespace Arguments

def value? (arguments : Arguments) (name : String) : Option String := arguments.set.reverse.lookup name

def text (arguments : Arguments) (name : String) (default : String := "") : String :=
  (arguments.value? name).getD default

def switch? (arguments : Arguments) (name : String) : Option Bool := (arguments.value? name).bind Text.truth?

def isOn (arguments : Arguments) (name : String) : Bool := (arguments.switch? name).getD false

end Arguments

/-- Whether an argument is neither a flag nor the end of the flags. A dash alone is a word. -/
def isWord (argument : String) : Bool := !Text.startsWith argument "-" || argument = "-"

/-- Reads a flag by its name; `next` is the argument that follows. The result tells whether that one was used. -/
def longFlag (flags : List Flag) (argument : String) (next : Option String) :
    Except FlagError ((String × String) × Bool) :=
  let body := argument.toList.drop 2
  if body.head? = some '-' ∨ body.head? = some '=' then .error (.malformed argument)
  else
    let name := String.ofList (body.takeWhile (· ≠ '='))
    match Flag.named? flags name with
    | none => .error (.unknown name)
    | some flag =>
      if body.contains '=' then
        (flag.assign (String.ofList ((body.dropWhile (· ≠ '=')).drop 1))).map fun set => (set, false)
      else match flag.bareValue?, next with
        | some value, _ => (flag.assign value).map fun set => (set, false)
        | none, some value => (flag.assign value).map fun set => (set, true)
        | none, none => .error (.missingValue name)

/-- The letter by which a message names a byte: beyond ASCII, the first byte of its written form. -/
def shownLetter (b : UInt8) : Char := Char.ofNat ((Text.Utf8.encodeChar (Char.ofNat b.toNat)).headD b).toNat

/-- How letters begin that are meant for somebody else and are passed in silence. -/
def foreignLetters : List UInt8 := Text.Utf8.encode "test."

/-- Reads flags by their letters, byte by byte, up to one that takes the rest as its value. -/
def letterFlags (flags : List Flag) (next : Option String) :
    List UInt8 → Except FlagError (List (String × String) × Bool)
  | [] => .ok ([], false)
  | b :: rest =>
    let letter := Char.ofNat b.toNat
    let letters := Text.Utf8.decode (b :: rest)
    if foreignLetters.isPrefixOf (b :: rest) then .ok ([], false)
    else match Flag.lettered? flags letter with
    | none => .error (.unknownLetter (shownLetter b) letters)
    | some flag =>
      let last (value : String) (usesNext : Bool) := (flag.assign value).map fun set => ([set], usesNext)
      if rest.head? = some 0x3D ∧ 1 < rest.length then last (Text.Utf8.decode (rest.drop 1)) false
      else match flag.bareValue? with
        | some value => do
          let set ← flag.assign value
          let (more, usesNext) ← letterFlags flags next rest
          return (set :: more, usesNext)
        | none =>
          if rest ≠ [] then last (Text.Utf8.decode rest) false
          else match next with
            | some value => last value true
            | none => .error (.missingLetterValue letter letters)

def argumentFlags (flags : List Flag) (argument : String) (next : Option String) :
    Except FlagError (List (String × String) × Bool) :=
  if Text.startsWith argument "--" then (longFlag flags argument next).map fun (set, usesNext) => ([set], usesNext)
  else letterFlags flags next ((Text.Utf8.encode argument).drop 1)

/-- Divides arguments into flags and words. Two dashes end the flags. -/
def Arguments.parse (flags : List Flag) : List String → Except FlagError Arguments
  | [] => .ok {}
  | argument :: rest =>
    if argument = "--" then .ok { words := rest }
    else if isWord argument then (parse flags rest).map fun more => { more with words := argument :: more.words }
    else do
      let (set, usesNext) ← argumentFlags flags argument rest.head?
      let more ←
        if usesNext then
          match rest with
          | [] => .ok {}
          | _ :: rest => parse flags rest
        else parse flags rest
      return { more with set := set ++ more.set }

end ScriptLoader.CommandLine
