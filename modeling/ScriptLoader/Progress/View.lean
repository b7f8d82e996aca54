import ScriptLoader.Progress.Board
import ScriptLoader.Text.Cells

/-! The board as text: a title, a line for each file and a bar. -/

set_option autoImplicit false
namespace ScriptLoader.Progress

def spinnerFrames : List String := ["⣾ ", "⣽ ", "⣻ ", "⢿ ", "⡿ ", "⣟ ", "⣯ ", "⣷ "]

def shorten (value : String) (room : Int) : String :=
  if room ≤ 0 ∨ (Text.width value.toList : Int) ≤ room then value
  else Text.truncate room.toNat (if room ≤ 3 then "" else "...") value

def bar (full : Bool) (width : Int) : String :=
  Text.fill (if full then '█' else '░') (width - 5).toNat ++ (if full then " 100%" else "   0%")

namespace Board

def header (board : Board) : String :=
  if board.isDone then "done: " ++ board.title
  else spinnerFrames.getD (board.ticks % spinnerFrames.length) "" ++ " " ++ board.title

def nameWidth (board : Board) : Int := max (board.width - 16) 20

def line (board : Board) (item : Item) : String :=
  "  " ++ Text.evenLines (Text.padLeft 12 item.status.text) ++ " " ++ shorten item.label board.nameWidth ++ "\n"

/-- The whole board; nothing when there are no files. The bar fills when all is done. -/
def view (board : Board) : String :=
  if board.items.isEmpty then ""
  else Text.evenLines board.header ++ "\n\n" ++ String.join (board.items.map board.line) ++ "\n" ++
    bar board.isDone board.barWidth ++ "\n"

end Board
end ScriptLoader.Progress
