import ScriptLoader.LoaderOptions
import ScriptLoader.MessagePack

/-!
Loader options as bytes, the form in which a loader receives them. Options that are not set are left out.
-/

set_option autoImplicit false
namespace ScriptLoader.LoaderOptions
open MessagePack

def checkName : List UInt8 := Text.Utf8.encode "check"

def defaultsName : List UInt8 := Text.Utf8.encode "defaults"

def payloadMembers (o : LoaderOptions) : List (List UInt8) :=
  (match o.check with
    | some check => [ofText checkName ++ ofFlag check]
    | none => []) ++
  if o.defaults = "" then [] else [ofText defaultsName ++ ofText (Text.Utf8.encode o.defaults)]

def toPayload (o : LoaderOptions) : List UInt8 :=
  UInt8.ofNat (0x80 + o.payloadMembers.length) :: o.payloadMembers.flatten

def readCheck (o : LoaderOptions) (bytes : List UInt8) : Option (LoaderOptions × List UInt8) :=
  (flag? bytes).map fun (check, rest) => ({ o with check := check }, rest)

def readDefaults (o : LoaderOptions) (bytes : List UInt8) : Option (LoaderOptions × List UInt8) :=
  (text? bytes).map fun (content, rest) => ({ o with defaults := Text.Utf8.decode (content.getD []) }, rest)

/-- Reads members of a map; a later member of a name replaces an earlier one, and others are passed over. -/
def readMembers : Nat → LoaderOptions → List UInt8 → Option LoaderOptions
  | 0, o, _ => some o
  | count + 1, o, bytes => do
    let (name, bytes) ← text? bytes
    if name = some checkName then
      let (o, bytes) ← o.readCheck bytes
      readMembers count o bytes
    else if name = some defaultsName then
      let (o, bytes) ← o.readDefaults bytes
      readMembers count o bytes
    else readMembers count o (← skip? 1 bytes)

def readElements (count : Nat) (bytes : List UInt8) : Option LoaderOptions :=
  if count = 0 then some {}
  else if count = 2 then do
    let (o, bytes) ← readCheck {} bytes
    let (o, _) ← o.readDefaults bytes
    return o
  else none

/-- Reads options; bytes after them do not count, and no bytes at all stand for options that are not set. -/
def ofPayload? (bytes : List UInt8) : Option LoaderOptions :=
  if bytes = [] ∨ bytes.head? = some 0xC0 then some {}
  else match mapSize? bytes with
    | some (count, rest) => readMembers count {} rest
    | none =>
      match arraySize? bytes with
      | some (count, rest) => readElements count rest
      | none => none

end ScriptLoader.LoaderOptions
