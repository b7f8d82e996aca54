import ScriptLoader.Graph.Build

/-!
Topological order of a graph of projects, batch by batch, from the lists that are built for it. Every project
counts the dependencies that it waits for. A project that is placed takes one off the counts of its
dependents, and those that come to zero form the next batch. What still waits in the end depends on a cycle.
Counts have no bound, as numbers have none; both fit into 32 bits where there are at most `2 ^ 32` paths.
-/

set_option autoImplicit false
namespace ScriptLoader.Graph

/-- The projects that can be placed, in a row and in batches, and those that fit into no batch. -/
structure Order where
  sequence : List Nat
  batches : List (List Nat)
  isCyclic : Bool
  stuck : List Nat
  deriving DecidableEq, Repr

/-- Takes one off the count of each of the given projects; the second part holds those that come to zero. -/
def release : List Int → List Nat → List Int × List Nat
  | counts, [] => (counts, [])
  | counts, n :: rest =>
    let counts := counts.modify n (· - 1)
    let (after, free) := release counts rest
    (after, if counts[n]? = some 0 then n :: free else free)

/-- How far a sort has come. The counts stand at the numbers of the projects. -/
structure Sorting where
  sequence : List Nat := []
  batches : List (List Nat) := []
  counts : List Int

def Sorting.waiting (s : Sorting) : Nat := s.counts.countP (0 < ·)

theorem countP_modify_pred (counts : List Int) (n : Nat) :
    (counts.modify n (· - 1)).countP (0 < ·) + (if (counts.modify n (· - 1))[n]? = some 0 then 1 else 0) ≤
      counts.countP (0 < ·) := by
  induction counts generalizing n with
  | nil => simp
  | cons count rest ih =>
    cases n with
    | zero =>
      simp only [List.modify_zero_cons, List.countP_cons, List.getElem?_cons_zero, Option.some.injEq,
        decide_eq_true_eq]
      split <;> split <;> split <;> omega
    | succ n =>
      simp only [List.modify_succ_cons, List.countP_cons, List.getElem?_cons_succ]
      rw [Nat.add_right_comm]
      exact Nat.add_le_add_right (ih n) _

theorem countP_release (counts : List Int) (released : List Nat) :
    (release counts released).1.countP (0 < ·) + (release counts released).2.length ≤ counts.countP (0 < ·) := by
  induction released generalizing counts with
  | nil => simp [release]
  | cons n rest ih =>
    have first := countP_modify_pred counts n
    have later := ih (counts.modify n (· - 1))
    simp only [release]
    split
    · rw [if_pos ‹_›] at first
      rw [List.length_cons]
      omega
    · omega

namespace Built

/-- Places a project and releases its dependents. Those that wait for nothing any more are added to the free ones. -/
def place (b : Built) (held : Sorting × List Nat) (n : Nat) : Sorting × List Nat :=
  let (counts, free) := release held.1.counts (b.edges.getD n [])
  ({ held.1 with sequence := held.1.sequence ++ [n], counts := counts }, held.2 ++ free)

def placeBatch (b : Built) (s : Sorting) (batch : List Nat) : Sorting × List Nat :=
  batch.foldl b.place ({ s with batches := s.batches ++ [batch] }, [])

theorem waiting_foldl_place (b : Built) (held : Sorting × List Nat) (batch : List Nat) :
    (batch.foldl b.place held).1.waiting + (batch.foldl b.place held).2.length ≤
      held.1.waiting + held.2.length := by
  induction batch generalizing held with
  | nil => exact Nat.le_refl _
  | cons n rest ih =>
    have first : (b.place held n).1.waiting + (b.place held n).2.length ≤ held.1.waiting + held.2.length := by
      have released := countP_release held.1.counts (b.edges.getD n [])
      simp only [place, Sorting.waiting, List.length_append]
      omega
    exact Nat.le_trans (ih _) first

theorem waiting_placeBatch (b : Built) (s : Sorting) (batch : List Nat) :
    (b.placeBatch s batch).1.waiting + (b.placeBatch s batch).2.length ≤ s.waiting :=
  b.waiting_foldl_place ({ s with batches := s.batches ++ [batch] }, []) batch

/-- Places batch after batch; the projects that one sets free, in order, are the next. -/
def placeBatches (b : Built) (s : Sorting) (batch : List Nat) : Sorting :=
  if batch = [] then s
  else
    let placed := b.placeBatch s batch
    b.placeBatches placed.1 placed.2.mergeSort
  termination_by s.waiting + batch.length
  decreasing_by
    have placed := b.waiting_placeBatch s batch
    have some_project := List.length_pos_iff.mpr ‹batch ≠ []›
    rw [List.length_mergeSort]
    omega

def numbers (b : Built) : List Nat := (List.range b.edges.length).filter (b.present.getD · false)

def counts (b : Built) : List Int := b.waits.map Int.ofNat

def sort (b : Built) : Order :=
  let last := b.placeBatches { counts := b.counts } (b.numbers.filter fun n => b.counts.getD n 0 = 0)
  if last.sequence.length = b.numbers.length then ⟨last.sequence, last.batches, false, []⟩
  else ⟨last.sequence, last.batches, true, b.numbers.filter fun n => 0 < last.counts.getD n 0⟩

end Built

def sort (g : Graph) : Order := g.build.sort

/-- Names the projects that depend on a cycle. -/
def cycle? (g : Graph) (order : Order) : Option Diagnostic :=
  if order.isCyclic ∧ order.stuck ≠ [] then
    some (.ofError .referenceCycle
      ("Project references may not form a circular graph. Cycle detected: " ++
        String.intercalate " -> " (order.stuck.map g.path)))
  else none

end ScriptLoader.Graph
