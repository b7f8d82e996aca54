import ScriptLoader.Text.Quoted
import ScriptLoader.Url.IpAddress
import ScriptLoader.Url.Percent

/-!
URLs, read as bytes: scheme, host and decoded path. What stands after a question mark or a number sign is
kept as it is or only checked.
-/

set_option autoImplicit false
namespace ScriptLoader

inductive UrlProblem where
  | controlCharacter
  | missingScheme
  | colonInFirstSegment
  | unclosedHost
  /-- Brackets that do not begin the host, or hold something else than a bracketed address. -/
  | badLiteral
  | badAddress (address : List UInt8) (problem : IpAddress.Problem)
  | badPort (text : List UInt8)
  | badUser
  | badEscape (text : List UInt8)
  | badHostByte (b : UInt8)
  deriving DecidableEq, Repr

def UrlProblem.message : UrlProblem → String
  | .controlCharacter => "net/url: invalid control character in URL"
  | .missingScheme => "missing protocol scheme"
  | .colonInFirstSegment => "first path segment in URL cannot contain colon"
  | .unclosedHost => "missing ']' in host"
  | .badLiteral => "invalid IP-literal"
  | .badAddress address problem => "invalid host: " ++ problem.message address
  | .badPort text => "invalid port " ++ Text.quotedBytes text ++ " after host"
  | .badUser => "net/url: invalid userinfo"
  | .badEscape text => "invalid URL escape " ++ Text.quotedBytes text
  | .badHostByte b => "invalid character " ++ Text.quotedBytes [b] ++ " in host name"

structure Url where
  /-- In lower case, and empty for a relative URL. -/
  scheme : List UInt8 := []
  host : List UInt8 := []
  /-- The decoded path; empty for a URL without slash after its scheme. -/
  path : List UInt8 := []
  writtenPath : List UInt8 := []
  query : List UInt8 := []
  deriving DecidableEq, Repr

namespace Url

def cut (b : UInt8) (text : List UInt8) : List UInt8 × List UInt8 :=
  (text.takeWhile (· ≠ b), (text.dropWhile (· ≠ b)).drop 1)

def cutLast? (b : UInt8) (text : List UInt8) : Option (List UInt8 × List UInt8) :=
  if text.contains b then
    let after := (text.reverse.takeWhile (· ≠ b)).reverse
    some (text.take (text.length - after.length - 1), b :: after)
  else none

def isControl (b : UInt8) : Bool := b < 0x20 || b == 0x7F

def isLetter (b : UInt8) : Bool := (byte 'a' ≤ b && b ≤ byte 'z') || (byte 'A' ≤ b && b ≤ byte 'Z')

def isSchemeByte (b : UInt8) : Bool := isLetterOrDigit b || b == byte '+' || b == byte '-' || b == byte '.'

def lower (b : UInt8) : UInt8 := if byte 'A' ≤ b && b ≤ byte 'Z' then b + 0x20 else b

/-- The scheme, which begins with a letter, and the text after its colon. Text without a scheme is all rest. -/
def scheme? (text : List UInt8) : Except UrlProblem (List UInt8 × List UInt8) :=
  match text.takeWhile isSchemeByte, text.dropWhile isSchemeByte with
  | [], b :: _ => if b = byte ':' then .error .missingScheme else .ok ([], text)
  | first :: more, b :: rest =>
    if isLetter first ∧ b = byte ':' then .ok ((first :: more).map lower, rest) else .ok ([], text)
  | _, [] => .ok ([], text)

def isOptionalPort : List UInt8 → Bool
  | [] => true
  | b :: digits => b == byte ':' && digits.all fun d => byte '0' ≤ d && d ≤ byte '9'

def isHostByte (b : UInt8) : Bool :=
  isLetterOrDigit b || b ≥ 0x80 || ("-_.~!$&'()*+,;=:[]<>\"".toList.map byte).contains b

/-- The first thing that is wrong with a host. Escapes stand for bytes outside of ASCII and for the percent
sign; in a zone they stand for any byte of a host and for blanks. -/
def hostProblem? (inZone : Bool) : List UInt8 → Option UrlProblem
  | [] => none
  | [b] => if b = percent then some (.badEscape [b]) else if isHostByte b then none else some (.badHostByte b)
  | [b, c] =>
    if b = percent then some (.badEscape [b, c])
    else if isHostByte b then hostProblem? inZone [c] else some (.badHostByte b)
  | b :: c :: d :: rest =>
    if b = percent then
      match hexByte? c d with
      | none => some (.badEscape [b, c, d])
      | some value =>
        if value = percent ∨ (if inZone then value = 0x20 ∨ isHostByte value ∧ value < 0x80 else value ≥ 0x80) then
          hostProblem? inZone rest
        else some (.badEscape [b, c, d])
    else if isHostByte b then hostProblem? inZone (c :: d :: rest) else some (.badHostByte b)

/-- The text before the first escaped percent sign, and the text from it on. -/
def cutZone? : List UInt8 → Option (List UInt8 × List UInt8)
  | [] => none
  | b :: rest =>
    if [byte '%', byte '2', byte '5'].isPrefixOf (b :: rest) then some ([], b :: rest)
    else (cutZone? rest).map fun (before, zone) => (b :: before, zone)

def literalProblem? (text : List UInt8) : Option UrlProblem :=
  let (host, zone) := (cutZone? text).getD (text, [])
  match hostProblem? false host, hostProblem? true zone with
  | some problem, _ => some problem
  | none, some problem => some problem
  | none, none =>
    let address := (unescape text).toOption.getD text
    match IpAddress.parse address with
    | .error problem => some (.badAddress address problem)
    | .ok .dotted => some .badLiteral
    | .ok .colons => none

def hostAndPortProblem? (text : List UInt8) : Option UrlProblem :=
  match cutLast? (byte '[') text with
  | some (before, bracketed) =>
    if before ≠ [] then some .badLiteral
    else match cutLast? (byte ']') bracketed with
      | none => some .unclosedHost
      | some (literal, close) =>
        if !isOptionalPort (close.drop 1) then some (.badPort (close.drop 1))
        else literalProblem? (literal.drop 1)
  | none =>
    match cutLast? (byte ':') text with
    | some (_, port) => if isOptionalPort port then hostProblem? false text else some (.badPort port)
    | none => hostProblem? false text

def isUserByte (b : UInt8) : Bool := isLetterOrDigit b || ("-._:~!$&'()*+,;=%@".toList.map byte).contains b

def authorityProblem? (text : List UInt8) : Option UrlProblem :=
  match cutLast? (byte '@') text with
  | none => hostAndPortProblem? text
  | some (user, host) =>
    match hostAndPortProblem? (host.drop 1) with
    | some problem => some problem
    | none =>
      if !user.all isUserByte then some .badUser
      else
        let (name, password) := cut (byte ':') user
        match unescape name, unescape password with
        | .error text, _ => some (.badEscape text)
        | _, .error text => some (.badEscape text)
        | _, _ => none

def hostOf (authority : List UInt8) : List UInt8 :=
  match cutLast? (byte '@') authority with
  | some (_, host) => host.drop 1
  | none => authority

def parseRest (scheme query rest : List UInt8) : Except UrlProblem Url :=
  let withPath (host path : List UInt8) : Except UrlProblem Url :=
    match unescape path with
    | .error text => .error (.badEscape text)
    | .ok decoded => .ok { scheme := scheme, host := host, path := decoded, writtenPath := path, query := query }
  if rest.head? ≠ some (byte '/') ∧ scheme ≠ [] then .ok { scheme := scheme, query := query }
  else if rest.head? ≠ some (byte '/') ∧ (rest.takeWhile (· ≠ byte '/')).contains (byte ':') then
    .error .colonInFirstSegment
  else
    let slashes := (rest.takeWhile (· = byte '/')).length
    if 2 ≤ slashes ∧ (scheme ≠ [] ∨ slashes = 2) then
      let authority := (rest.drop 2).takeWhile (· ≠ byte '/')
      match authorityProblem? authority with
      | some problem => .error problem
      | none => withPath (hostOf authority) ((rest.drop 2).dropWhile (· ≠ byte '/'))
    else withPath [] rest

/-- Reads a URL without fragment. -/
def parse (text : List UInt8) : Except UrlProblem Url :=
  if text.any isControl then .error .controlCharacter
  else if text = [byte '*'] then .ok { path := text, writtenPath := text }
  else match scheme? text with
    | .error problem => .error problem
    | .ok (scheme, rest) =>
      let (rest, query) := cut (byte '?') rest
      parseRest scheme query rest

end Url
end ScriptLoader
