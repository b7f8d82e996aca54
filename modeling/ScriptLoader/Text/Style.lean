/-! Text with terminal colours. -/

set_option autoImplicit false
namespace ScriptLoader.Text

structure Style where
  colour : Nat
  bold : Bool := false

namespace Style

def red : Style := ⟨31, false⟩
def green : Style := ⟨32, false⟩
def yellow : Style := ⟨33, false⟩
def blue : Style := ⟨34, false⟩
def cyan : Style := ⟨36, false⟩
def grey : Style := ⟨90, false⟩

def inBold (style : Style) : Style := { style with bold := true }

def escape : String := "\x1b["

/-- Paints a text when colours are enabled. The end of a bold text switches the weight back too. -/
def paint (style : Style) (enabled : Bool) (text : String) : String :=
  if !enabled then text
  else if style.bold then
    escape ++ toString style.colour ++ ";1m" ++ text ++ escape ++ "0;22m"
  else escape ++ toString style.colour ++ "m" ++ text ++ escape ++ "0m"

end Style
end ScriptLoader.Text
