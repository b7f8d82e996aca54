import ScriptLoader.Decimal.Fixed
import ScriptLoader.Pipeline.Progress

/-!
How far the compilation of files has come. A file that is done or failed stays so, whatever is told about
it afterwards.
-/

set_option autoImplicit false
namespace ScriptLoader

def Stage.label : Stage → String
  | .config => "configuring"
  | .references => "references"
  | .program => "parsing"
  | .emit => "emitting"
  | .diagnose => "checking"
  | .resolve => "resolving"

def Stage.ofName? (name : String) : Option Stage :=
  [Stage.config, .references, .program, .emit, .diagnose, .resolve].find? (·.name = name)

def stageLabel (name : String) : String := ((Stage.ofName? name).map Stage.label).getD name

namespace Progress

inductive ItemStatus where
  | queued
  | working (label : String)
  | done
  | error
  deriving DecidableEq, Repr

def ItemStatus.text : ItemStatus → String
  | .queued => "queued"
  | .working label => label
  | .done => "done"
  | .error => "error"

/-- The status that is shown by a label; a label may be one of the words for the other statuses. -/
def ItemStatus.ofLabel (label : String) : ItemStatus :=
  if label = "queued" then .queued
  else if label = "done" then .done
  else if label = "error" then .error
  else .working label

def ItemStatus.isFinal (status : ItemStatus) : Bool := status = .done || status = .error

structure Item where
  file : String
  label : String
  status : ItemStatus := .queued
  completed : Nat := 0
  deriving DecidableEq, Repr

namespace Item

def isFinal (item : Item) : Bool := item.status.isFinal

def beginStage (label : String) (item : Item) : Item :=
  if item.isFinal then item else { item with status := .ofLabel label }

def finishStage (stage : Stage) (item : Item) : Item :=
  if item.isFinal then item
  else
    { item with
      completed := max item.completed (match Stage.compile.findIdx? (· = stage) with
        | some place => place + 1
        | none => 0)
      status := if stage = .diagnose then .done else item.status }

def fail (item : Item) : Item := if item.isFinal then item else { item with status := .error }

def stagesDone (item : Item) : Nat := if item.isFinal then Stage.compile.length else item.completed

def part (item : Item) : Binary64 := .ofQuotient item.stagesDone Stage.compile.length

end Item

structure Board where
  title : String
  items : List Item
  width : Int := 80
  barWidth : Int := 76
  ticks : Nat := 0
  isDone : Bool := false
  deriving DecidableEq, Repr

namespace Board

/-- Files with the labels given for them; the rest are shown by their paths. -/
def labelled : List String → List String → List Item
  | [], _ => []
  | file :: files, [] => ⟨file, file, .queued, 0⟩ :: labelled files []
  | file :: files, label :: labels => ⟨file, label, .queued, 0⟩ :: labelled files labels

def new (title : String) (files labels : List String) : Board := { title := title, items := labelled files labels }

/-- Changes the item of a file, of several the last. -/
def changeLast (file : String) (f : Item → Item) : List Item → List Item
  | [] => []
  | item :: rest =>
    if item.file = file ∧ !rest.any (·.file = file) then f item :: rest else item :: changeLast file f rest

def change (board : Board) (file : String) (f : Item → Item) : Board :=
  { board with items := changeLast file f board.items }

def apply (board : Board) (event : ProgressEvent) : Board :=
  match event.status with
  | .working => board.change event.file (Item.beginStage event.stage.label)
  | .done => board.change event.file (Item.finishStage event.stage)
  | .error => board.change event.file Item.fail

/-- The work done and all the work, in stages. -/
def share (board : Board) : Nat × Nat :=
  if board.items.isEmpty then (1, 1)
  else ((board.items.map Item.stagesDone).foldr (· + ·) 0, Stage.compile.length * board.items.length)

/-- The share of the work as it is told: file by file the parts are summed up, each step rounded. -/
def fraction (board : Board) : Binary64 :=
  if board.items.isEmpty then .one
  else ((board.items.map Item.part).foldl Binary64.add .zero).divNat board.items.length

def close (board : Board) : Board := { board with isDone := true }

def tick (board : Board) : Board := if board.isDone then board else { board with ticks := board.ticks + 1 }

/-- Takes on a width; only a positive one is a width. -/
def resize (board : Board) (width : Int) : Board :=
  if 0 < width then { board with width := width, barWidth := width - 4 } else board

end Board
end Progress
end ScriptLoader
