import ScriptLoader.Text.Basic
import ScriptLoader.Text.Utf8

/-! Entries of the log, and their form as lines. -/

set_option autoImplicit false
namespace ScriptLoader

inductive LogLevel where
  | debug | info | warn | error
  deriving DecidableEq, Repr

def LogLevel.name : LogLevel → String
  | .debug => "DEBUG"
  | .info => "INFO"
  | .warn => "WARN"
  | .error => "ERROR"

inductive LogValue where
  | text (value : String)
  | flag (value : Bool)
  | number (value : Int)
  deriving DecidableEq, Repr

structure LogEntry where
  level : LogLevel
  /-- The part of the program that wrote the entry, empty for the program itself. -/
  part : String
  message : String
  fields : List (String × LogValue)
  deriving DecidableEq, Repr

namespace LogEntry

def debug (part message : String) (fields : List (String × LogValue)) : LogEntry :=
  ⟨.debug, part, message, fields⟩

def escapeChar (c : Char) : String :=
  if Text.Utf8.isStray c then "\\u" ++ Text.hex 4 Text.Utf8.replacement.toNat
  else if c = '"' then "\\\""
  else if c = '\\' then "\\\\"
  else if c = '\n' then "\\n"
  else if c = '\r' then "\\r"
  else if c = '\t' then "\\t"
  else if c.toNat < 0x20 then "\\u" ++ Text.hex 4 c.toNat
  else String.singleton c

def quote (s : String) : String := "\"" ++ String.join (s.toList.map escapeChar) ++ "\""

def renderValue : LogValue → String
  | .text value => quote value
  | .flag value => if value then "true" else "false"
  | .number value => toString value

def renderFields (fields : List (String × LogValue)) : String :=
  "\x7b" ++ String.intercalate ", " (fields.map fun (name, value) => quote name ++ ": " ++ renderValue value) ++ "\x7d"

def render (entry : LogEntry) : String :=
  String.intercalate "\t"
    ([entry.level.name] ++ (if entry.part = "" then [] else [entry.part]) ++ [entry.message] ++
      (if entry.fields.isEmpty then [] else [renderFields entry.fields]))

end LogEntry
end ScriptLoader
