import ScriptLoader.Diagnostic.Basic
import ScriptLoader.Graph.Basic

/-!
Graphs as lists by number. First every node is entered under the number of its path. Then the dependencies of
the entered nodes are gone through in order of the numbers: one that is present is joined to the project that
names it, one that has a number but is not present is reported.
-/

set_option autoImplicit false
namespace ScriptLoader.Graph

/-- The dependencies of the node that is entered under each number, `none` where no node is. -/
abbrev Entered := List (Option (List String))

/-- Enters a node under the number of its path. A node without a number is passed over, and so is one whose
number is taken. -/
def enter (paths : List String) (entered : Entered) (node : Node) : Entered :=
  match number? paths node.path with
  | none => entered
  | some n => entered.modify n fun held => some (held.getD node.dependencies)

def notPresent (path file : String) : Diagnostic :=
  (Diagnostic.ofError .fileNotFound ("File '" ++ path ++ "' not found.")).inFile file

/-- The dependents of each number, the number of dependencies that each one waits for, and what was reported. -/
structure Joined where
  edges : List (List Nat)
  waits : List Nat
  reported : List Diagnostic

def join (paths : List String) (entered : Entered) (n : Nat) (held : Joined) (m : Nat) : Joined :=
  if (entered.getD m none).isSome then
    { held with edges := held.edges.modify m (· ++ [n]), waits := held.waits.modify n (· + 1) }
  else { held with reported := held.reported ++ [notPresent (paths.getD m "") (paths.getD n "")] }

/-- Goes on to a dependency of `n` by its path. It counts when it has a number, other than `n` and not seen before. -/
def joinPath (paths : List String) (entered : Entered) (n : Nat) (held : Joined × List Nat) (path : String) :
    Joined × List Nat :=
  match number? paths path with
  | none => held
  | some m => if m = n ∨ m ∈ held.2 then held else (join paths entered n held.1 m, m :: held.2)

def joinNode (paths : List String) (entered : Entered) (held : Joined) (n : Nat) : Joined :=
  match entered.getD n none with
  | none => held
  | some dependencies => (dependencies.foldl (joinPath paths entered n) (held, [])).1

structure Built extends Joined where
  present : List Bool

def entered (g : Graph) : Entered := g.nodes.foldl (enter g.paths) (List.replicate g.paths.length none)

def separate (g : Graph) : Joined := ⟨List.replicate g.paths.length [], List.replicate g.paths.length 0, []⟩

/-- The graph by numbers. The dependents of a project stand in increasing order. -/
def build (g : Graph) : Built :=
  let joined := g.numbers.foldl (joinNode g.paths g.entered) g.separate
  { joined with edges := joined.edges.map List.mergeSort, present := g.entered.map Option.isSome }

end ScriptLoader.Graph
