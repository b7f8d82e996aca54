import ScriptLoader.Diagnostic.Basic
import ScriptLoader.Path
import ScriptLoader.Text.Style
import ScriptLoader.Text.Utf8
import ScriptLoader.Text.Width

/-! Diagnostics as text: one line each, and with `pretty` also the source line with the place underlined. -/

set_option autoImplicit false
namespace ScriptLoader.Diagnostic

structure FormatOptions where
  /-- Paths below this directory are shown relative to it. -/
  cwd : String := ""
  pretty : Bool := false
  color : Bool := false

/-- A path relative to a directory, unless it lies outside of it. -/
def displayPath (cwd path : String) : String :=
  if cwd = "" ∨ path = "" then path
  else match Path.rel? cwd path with
    | none => path
    | some relative => if Text.startsWith relative ".." then path else relative

def categoryStyle : Category → Text.Style
  | .error => Text.Style.red.inBold
  | .warning => Text.Style.yellow.inBold
  | _ => Text.Style.blue

def place (options : FormatOptions) (d : Diagnostic) : String :=
  if d.file = "" then ""
  else
    let file := Text.Style.cyan.paint options.color (displayPath options.cwd d.file)
    let line := toString d.line
    let column := toString (max d.column 1)
    if options.pretty ∧ 0 < d.line then
      file ++ ":" ++ Text.Style.yellow.paint options.color line ++ ":" ++
        Text.Style.yellow.paint options.color column ++ " - "
    else if 0 < d.line then
      file ++ Text.Style.yellow.paint options.color ("(" ++ line ++ "," ++ column ++ ")") ++ ": "
    else file ++ ": "

def header (options : FormatOptions) (d : Diagnostic) : String :=
  let code := d.code.name
  place options d ++ (categoryStyle d.category).paint options.color d.category.name ++
    (if code = "" then "" else " " ++ Text.Style.grey.paint options.color code) ++ ": " ++ d.message ++ "\n"

/-- Blanks as wide as the text; tabs stay tabs, so that what follows lines up. -/
def padding (s : List Char) : String :=
  String.join (s.map fun c => if c = '\t' then "\t" else Text.fill ' ' (Text.charWidth c))

/-- The number of columns to underline: the length given, cut to the end of the line. -/
def underlineWidth (text : List UInt8) (column : Nat) (length : Int) : Nat :=
  let wanted := (max length 1).toNat
  if text.length < column + wanted ∧ column < text.length then
    max (Text.width (Text.Utf8.decodeChars (text.drop column))) 1
  else wanted

def excerpt (options : FormatOptions) (d : Diagnostic) : String :=
  let line := toString d.line
  let text := String.ofList (Text.trimEnd (fun c => c = '\r' || c = '\n') d.lineText.toList)
  let bytes := Text.Utf8.encode text
  let column := (max d.column 1 - 1).toNat
  let under := Text.fill '~' (underlineWidth bytes column d.length)
  "\n" ++ Text.Style.grey.paint options.color line ++ " " ++ text ++ "\n" ++
    Text.fill ' ' (line.length + 1) ++ padding (Text.Utf8.decodeChars (bytes.take column)) ++
    (categoryStyle d.category).paint options.color under ++ "\n"

def formatOne (options : FormatOptions) (d : Diagnostic) : String :=
  header options d ++
    (if options.pretty ∧ d.lineText ≠ "" ∧ 0 < d.line then excerpt options d else "")

def format (options : FormatOptions) (diagnostics : List Diagnostic) : String :=
  String.intercalate (if options.pretty then "\n" else "") (diagnostics.map (formatOne options))

end ScriptLoader.Diagnostic
