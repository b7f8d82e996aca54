import ScriptLoader.Text.Quoted
import ScriptLoader.Url.Percent

/-!
Addresses of hosts by number: four decimal fields divided by dots, or up to eight hexadecimal fields divided
by colons, where a double colon stands for as many zero fields as are missing, the last two fields may be
written as a dotted address, and a zone may follow a percent sign. `parse` finds out which of the two an
address is, or the first thing that is wrong with it.
-/

set_option autoImplicit false
namespace ScriptLoader.IpAddress

inductive Family where
  | dotted
  | colons
  deriving DecidableEq, Repr

inductive Reason where
  | unknownForm
  | missingAddress
  | leadingZero
  | valueAbove255
  | emptyField
  | dottedTooLong
  | dottedTooShort
  | unexpected
  | emptyZone
  | longGroup
  | emptyGroup
  | dottedNotLast
  | noRoomForDotted
  | wantColon
  | trailingColon
  | secondEllipsis
  | trailingText
  | tooShort
  | emptyEllipsis
  deriving DecidableEq, Repr

def Reason.message : Reason → String
  | .unknownForm => "unable to parse IP"
  | .missingAddress => "missing IPv6 address"
  | .leadingZero => "IPv4 field has octet with leading zero"
  | .valueAbove255 => "IPv4 field has value >255"
  | .emptyField => "IPv4 field must have at least one digit"
  | .dottedTooLong => "IPv4 address too long"
  | .dottedTooShort => "IPv4 address too short"
  | .unexpected => "unexpected character"
  | .emptyZone => "zone must be a non-empty string"
  | .longGroup => "each group must have 4 or less digits"
  | .emptyGroup => "each colon-separated field must have at least one digit"
  | .dottedNotLast => "embedded IPv4 address must replace the final 2 fields of the address"
  | .noRoomForDotted => "too many hex fields to fit an embedded IPv4 at the end of the address"
  | .wantColon => "unexpected character, want colon"
  | .trailingColon => "colon must be followed by more characters"
  | .secondEllipsis => "multiple :: in address"
  | .trailingText => "trailing garbage after address"
  | .tooShort => "address string too short"
  | .emptyEllipsis => "the :: must expand to at least one field of zeros"

/-- What is wrong with an address, and the text from where it was found; empty when it has no place. -/
structure Problem where
  reason : Reason
  place : List UInt8 := []
  deriving DecidableEq, Repr

def Problem.message (address : List UInt8) (problem : Problem) : String :=
  "ParseAddr(" ++ Text.quotedBytes address ++ "): " ++ problem.reason.message ++
    if problem.place = [] then "" else " (at " ++ Text.quotedBytes problem.place ++ ")"

def dot : UInt8 := Url.byte '.'
def colon : UInt8 := Url.byte ':'

def isDigit (b : UInt8) : Bool := Url.byte '0' ≤ b && b ≤ Url.byte '9'

def isHexDigit (b : UInt8) : Bool := (Text.hexValue? (Char.ofNat b.toNat)).isSome

/-- The first thing that is wrong with what is left of a dotted address. Before it `fields` are complete, and
`digits` digits of value `value` belong to the next. -/
def dottedProblem? (fields digits value : Nat) : List UInt8 → Option Problem
  | [] => if fields < 3 then some ⟨.dottedTooShort, []⟩ else none
  | b :: rest =>
    if isDigit b then
      let value' := value * 10 + (b.toNat - 0x30)
      if digits = 1 ∧ value = 0 then some ⟨.leadingZero, []⟩
      else if 255 < value' then some ⟨.valueAbove255, []⟩
      else dottedProblem? fields (digits + 1) value' rest
    else if b = dot then
      if digits = 0 ∨ rest = [] then some ⟨.emptyField, b :: rest⟩
      else if fields = 3 then some ⟨.dottedTooLong, []⟩
      else dottedProblem? (fields + 1) 0 0 rest
    else some ⟨.unexpected, b :: rest⟩

structure Progress where
  fields : Nat
  ellipsis : Bool

def Progress.endProblem? (progress : Progress) : Option Problem :=
  if progress.fields < 8 then if progress.ellipsis then none else some ⟨.tooShort, []⟩
  else if progress.ellipsis then some ⟨.emptyEllipsis, []⟩
  else none

/-- The first thing that is wrong from the beginning of a hexadecimal field on. The fuel bounds the number of fields. -/
def fieldsProblem? : Nat → Progress → List UInt8 → Option Problem
  | 0, _, s => some ⟨.trailingText, s⟩
  | fuel + 1, progress, s =>
    let digits := s.takeWhile isHexDigit
    let rest := s.dropWhile isHexDigit
    let read : Progress := { progress with fields := progress.fields + 1 }
    if progress.fields = 8 then some ⟨.trailingText, s⟩
    else if 4 < digits.length then some ⟨.longGroup, s⟩
    else if digits = [] then some ⟨.emptyGroup, s⟩
    else match rest with
      | [] => read.endProblem?
      | b :: more =>
        if b = dot then
          if !progress.ellipsis ∧ progress.fields ≠ 6 then some ⟨.dottedNotLast, s⟩
          else if 6 < progress.fields then some ⟨.noRoomForDotted, s⟩
          else (dottedProblem? 0 0 0 s).or ({ progress with fields := progress.fields + 2 } : Progress).endProblem?
        else if b ≠ colon then some ⟨.wantColon, rest⟩
        else match more with
          | [] => some ⟨.trailingColon, rest⟩
          | c :: after =>
            if c = colon then
              if progress.ellipsis then some ⟨.secondEllipsis, more⟩
              else if after = [] then ({ read with ellipsis := true } : Progress).endProblem?
              else fieldsProblem? fuel { read with ellipsis := true } after
            else fieldsProblem? fuel read more

def colonsProblem? (s : List UInt8) : Option Problem :=
  match s with
  | b :: c :: rest =>
    if b = colon ∧ c = colon then
      if rest = [] then none else fieldsProblem? 9 ⟨0, true⟩ rest
    else fieldsProblem? 9 ⟨0, false⟩ s
  | s => fieldsProblem? 9 ⟨0, false⟩ s

def parse (address : List UInt8) : Except Problem Family :=
  match address.find? fun b => b = dot || b = colon || b = Url.percent with
  | none => .error ⟨.unknownForm, []⟩
  | some b =>
    if b = dot then
      match dottedProblem? 0 0 0 address with
      | some problem => .error problem
      | none => .ok .dotted
    else if b = colon then
      let zone := address.dropWhile (· ≠ Url.percent)
      if zone = [Url.percent] then .error ⟨.emptyZone, []⟩
      else match colonsProblem? (address.takeWhile (· ≠ Url.percent)) with
        | some problem => .error problem
        | none => .ok .colons
    else .error ⟨.missingAddress, []⟩

end ScriptLoader.IpAddress
