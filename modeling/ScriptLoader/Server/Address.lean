import ScriptLoader.Text.Basic

/-! Addresses to listen on: a host and a port. -/

set_option autoImplicit false
namespace ScriptLoader.Server

inductive AddressProblem where
  | missingPort (address : String)
  | tooManyColons (address : String)
  | unclosed (address : String)
  | unexpected (bracket : Char) (address : String)
  | invalidPort (port : String)
  | unknownPort (name : String)
  deriving DecidableEq, Repr

def AddressProblem.message (problem : AddressProblem) : String :=
  let located (address reason : String) : String :=
    (if address = "" then "" else "address " ++ address ++ ": ") ++ reason
  "listen tcp: " ++ match problem with
    | .missingPort address => located address "missing port in address"
    | .tooManyColons address => located address "too many colons in address"
    | .unclosed address => located address "missing ']' in address"
    | .unexpected bracket address => located address ("unexpected '" ++ String.singleton bracket ++ "' in address")
    | .invalidPort port => located port "invalid port"
    | .unknownPort name => "lookup tcp/" ++ name ++ ": unknown port"

def cutPort? (address : List Char) : Option (List Char × List Char) :=
  if address.contains ':' then
    let port := (address.reverse.takeWhile (· ≠ ':')).reverse
    some (address.take (address.length - port.length - 1), port)
  else none

/-- The port of an address. A host with colons of its own stands in brackets. -/
def portOf (address : String) : Except AddressProblem String :=
  match cutPort? address.toList with
  | none => .error (.missingPort address)
  | some (host, port) =>
    let bracketFree (opening closing : List Char) : Except AddressProblem String :=
      if opening.contains '[' then .error (.unexpected '[' address)
      else if closing.contains ']' then .error (.unexpected ']' address)
      else .ok (String.ofList port)
    match address.toList with
    | '[' :: rest =>
      if !rest.contains ']' then .error (.unclosed address)
      else
        let after := (rest.dropWhile (· ≠ ']')).drop 1
        if after = ':' :: port then bracketFree rest after
        else if after.head? = some ':' then .error (.tooManyColons address)
        else .error (.missingPort address)
    | whole => if host.contains ':' then .error (.tooManyColons address) else bracketFree whole whole

def portNames : List String :=
  ["domain", "ftp", "ftps", "gopher", "http", "https", "imap2", "imap3", "imaps", "pop3", "pop3s", "smtp",
    "submissions", "ssh", "telnet"]

/-- Numbers from here on are not read to their end. -/
def farTooGreat : Nat := 0x40000000

/-- The number that a port is written with, read digit by digit into a word of 32 bits; `none` for a name. -/
def portNumber? (n : Nat) : List Char → Option Nat
  | [] => some n
  | c :: rest =>
    if !c.isDigit then none
    else if farTooGreat ≤ n then some farTooGreat
    else
      let next := n * 10 % 0x100000000 + (c.toNat - '0'.toNat)
      if 0x100000000 ≤ next then some farTooGreat else portNumber? next rest

/-- What is wrong with a port. The empty one stands for any. -/
def portProblem? (port : String) : Option AddressProblem :=
  let (isNegative, digits) := match port.toList with
    | '-' :: rest => (true, rest)
    | '+' :: rest => (false, rest)
    | rest => (false, rest)
  match portNumber? 0 digits with
  | some value => if value = 0 ∨ !isNegative ∧ value ≤ 65535 then none else some (.invalidPort port)
  | none => if portNames.contains (Text.lowerAscii port) then none else some (.unknownPort port)

def addressProblem? (address : String) : Option AddressProblem :=
  match portOf address with
  | .error problem => some problem
  | .ok port => portProblem? port

end ScriptLoader.Server
