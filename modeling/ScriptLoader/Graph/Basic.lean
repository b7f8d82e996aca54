import ScriptLoader.Text.Order

/-!
Graphs of projects. Every path that is mentioned gets a number, in order of the paths. A project is present
when it was given itself and not only mentioned.

Numbers have no bound here. A program that keeps them in 32 bits wraps them around, or gives up, where there
are more paths; so what holds of a graph here holds there as long as it has at most `2 ^ 32` of them.
-/

set_option autoImplicit false
namespace ScriptLoader

structure Graph.Node where
  path : String
  dependencies : List String
  deriving DecidableEq, Repr

/-- The paths that have numbers, which are their places, and the nodes that are given. -/
structure Graph where
  paths : List String
  nodes : List Graph.Node
  distinct : paths.Nodup

namespace Graph

/-- The paths that nodes mention, in increasing order. -/
def index (nodes : List Node) : List String :=
  Text.Utf8.inOrder ((nodes.flatMap fun node => node.path :: node.dependencies).filter (· ≠ ""))

theorem nodup_index (nodes : List Node) : (index nodes).Nodup := Text.Utf8.nodup_inOrder _

/-- The graph of nodes, with the numbers of another list of nodes. -/
def numbered (known nodes : List Node) : Graph := ⟨index known, nodes, nodup_index known⟩

def ofNodes (nodes : List Node) : Graph := numbered nodes nodes

def number? (paths : List String) (path : String) : Option Nat := paths.findIdx? (· = path)

def path (g : Graph) (n : Nat) : String := g.paths.getD n ""

def numbers (g : Graph) : List Nat := List.range g.paths.length

end Graph
end ScriptLoader
