import ScriptLoader.Text.Basic
import ScriptLoader.Text.Printable
import ScriptLoader.Text.Utf8

/-!
Text in double quotes, as messages show it: a quote and a backslash are escaped, the usual controls
have their one-letter escapes, and whatever would not be visible is written by its number, as is a byte
that belongs to no character.
-/

set_option autoImplicit false
namespace ScriptLoader.Text

def quoteChar (c : Char) : String :=
  if Utf8.isStray c then "\\x" ++ hex 2 (c.toNat - Utf8.firstStray)
  else if c = '"' then "\\\""
  else if c = '\\' then "\\\\"
  else if isPrintable c then String.singleton c
  else if c.toNat = 0x07 then "\\a"
  else if c.toNat = 0x08 then "\\b"
  else if c.toNat = 0x0C then "\\f"
  else if c = '\n' then "\\n"
  else if c = '\r' then "\\r"
  else if c = '\t' then "\\t"
  else if c.toNat = 0x0B then "\\v"
  else if c.toNat < 0x20 ∨ c.toNat = 0x7F then "\\x" ++ hex 2 c.toNat
  else if c.toNat < 0x10000 then "\\u" ++ hex 4 c.toNat
  else "\\U" ++ hex 8 c.toNat

def quoted (s : String) : String := "\"" ++ String.join (s.toList.map quoteChar) ++ "\""

def quotedChar (c : Char) : String :=
  "'" ++ (if c = '\'' then "\\'" else if c = '"' then "\"" else quoteChar c) ++ "'"

def quotedBytes (bytes : List UInt8) : String := quoted (Utf8.decode bytes)

end ScriptLoader.Text
