import ScriptLoader.Text.Basic

/-! Percent-encoding of bytes. -/

set_option autoImplicit false
namespace ScriptLoader.Url

def byte (c : Char) : UInt8 := UInt8.ofNat c.toNat

def percent : UInt8 := 0x25

def hexByte? (high low : UInt8) : Option UInt8 :=
  match Text.hexValue? (Char.ofNat high.toNat), Text.hexValue? (Char.ofNat low.toNat) with
  | some h, some l => some (UInt8.ofNat (h * 16 + l))
  | _, _ => none

/-- Undoes percent-encoding. A percent sign without two digits is an error, which shows the sign and up to two
bytes after it. -/
def unescape : List UInt8 → Except (List UInt8) (List UInt8)
  | [] => .ok []
  | [b] => if b = percent then .error [b] else .ok [b]
  | [b, c] => if b = percent then .error [b, c] else (unescape [c]).map (b :: ·)
  | b :: c :: d :: rest =>
    if b = percent then
      match hexByte? c d with
      | some value => (unescape rest).map (value :: ·)
      | none => .error [b, c, d]
    else (unescape (c :: d :: rest)).map (b :: ·)

def isLetterOrDigit (b : UInt8) : Bool :=
  (byte 'a' ≤ b && b ≤ byte 'z') || (byte 'A' ≤ b && b ≤ byte 'Z') || (byte '0' ≤ b && b ≤ byte '9')

def isPathByte (b : UInt8) : Bool := isLetterOrDigit b || ("-_.~$&+,/:;=@".toList.map byte).contains b

def hexDigit (n : UInt8) : Char := if n < 10 then Char.ofNat (0x30 + n.toNat) else Char.ofNat (0x37 + n.toNat)

def escapeByte (b : UInt8) : List Char := ['%', hexDigit (b >>> 4), hexDigit (b &&& 15)]

def escapePath (path : List UInt8) : List Char :=
  path.flatMap fun b => if isPathByte b then [Char.ofNat b.toNat] else escapeByte b

end ScriptLoader.Url
