import Mathlib.Data.List.Chain
import Mathlib.Data.List.Nodup
import Mathlib.Logic.Relation

/-!
Walks along a relation: those that come back to where they were, and those of a given number of steps. Where there
are only so many places to go, a walk with more steps than places comes back.
-/

set_option autoImplicit false
namespace ScriptLoader.Graph

open Relation

/-- Something that leads, in any number of steps, to what leads back to itself. -/
def ReachesCycle {α : Type} (r : α → α → Prop) (a : α) : Prop := ∃ b, ReflTransGen r a b ∧ TransGen r b b

/-- The way to a cycle begins with a step, be it one of the cycle itself. -/
theorem ReachesCycle.step {α : Type} {r : α → α → Prop} {a : α} (cyclic : ReachesCycle r a) :
    ∃ b, r a b ∧ ReachesCycle r b := by
  obtain ⟨c, reached, cycle⟩ := cyclic
  rcases reached.cases_head with rfl | ⟨b, first, reached⟩
  · obtain ⟨b, first, back⟩ := TransGen.head'_iff.mp cycle
    exact ⟨b, first, a, back, cycle⟩
  · exact ⟨b, first, c, reached, cycle⟩

theorem ReachesCycle.head {α : Type} {r : α → α → Prop} {a b : α} (first : r a b) (cyclic : ReachesCycle r b) :
    ReachesCycle r a := by
  obtain ⟨c, reached, cycle⟩ := cyclic
  exact ⟨c, reached.head first, cycle⟩

/-- Along a row in which each leads to the next, all lead to the last. -/
theorem transGen_of_isChain {α : Type} {r : α → α → Prop} {before : List α} {a last : α}
    (walk : (before ++ [last]).IsChain r) (mem : a ∈ before) : TransGen r a last := by
  have onward : (before ++ [last]).Pairwise (TransGen r) := (walk.imp fun _ _ next => TransGen.single next).pairwise
  exact (List.pairwise_append.mp onward).2.2 a mem last List.mem_cons_self

section
variable {α β : Type} {r : α → α → Prop} {s : β → β → Prop} {f : α → β} {Held : α → Prop}
  (back : ∀ a c, Held a → s (f a) c → ∃ b, Held b ∧ r a b ∧ f b = c) {a : α} (held : Held a)
include back held

/-- Where a step can be followed back through a map, so can any number of steps. -/
theorem reflTransGen_of_map {c : β} (reached : ReflTransGen s (f a) c) :
    ∃ b, Held b ∧ ReflTransGen r a b ∧ f b = c := by
  induction reached with
  | refl => exact ⟨a, held, .refl, rfl⟩
  | tail _ last ih =>
    obtain ⟨b, held_b, way, rfl⟩ := ih
    obtain ⟨c, held_c, next, rfl⟩ := back b _ held_b last
    exact ⟨c, held_c, way.tail next, rfl⟩

theorem transGen_of_map {c : β} (reached : TransGen s (f a) c) : ∃ b, Held b ∧ TransGen r a b ∧ f b = c := by
  obtain ⟨d, first, rest⟩ := TransGen.head'_iff.mp reached
  obtain ⟨b, held_b, next, rfl⟩ := back a d held first
  obtain ⟨c, held_c, way, same⟩ := reflTransGen_of_map back held_b rest
  exact ⟨c, held_c, TransGen.head' next way, same⟩

theorem reachesCycle_map_iff (forth : ∀ a b, r a b → s (f a) (f b))
    (injective : ∀ a b, Held a → Held b → f a = f b → a = b) : ReachesCycle s (f a) ↔ ReachesCycle r a := by
  constructor
  · rintro ⟨c, reached, cycle⟩
    obtain ⟨b, held_b, way, rfl⟩ := reflTransGen_of_map back held reached
    obtain ⟨d, held_d, around, same⟩ := transGen_of_map back held_b cycle
    obtain rfl := injective d b held_d held_b same
    exact ⟨d, way, around⟩
  · rintro ⟨b, reached, cycle⟩
    exact ⟨f b, reached.lift f forth, cycle.lift f forth⟩

end

section
variable {α β : Type} {r : α → α → Prop} {s : β → β → Prop} (Sim : α → β → Prop)
  (follow : ∀ a c, Sim a c → ∀ b, r a b → ∃ d, s c d ∧ Sim b d) {a : α} {c : β} (sim : Sim a c)
include follow sim

theorem reflTransGen_simulate {b : α} (reached : ReflTransGen r a b) : ∃ d, ReflTransGen s c d ∧ Sim b d := by
  induction reached with
  | refl => exact ⟨c, .refl, sim⟩
  | tail _ last ih =>
    obtain ⟨d, way, sim_d⟩ := ih
    obtain ⟨e, next, sim_e⟩ := follow _ d sim_d _ last
    exact ⟨e, way.tail next, sim_e⟩

/-- A way round stays one where each place has at most one image. -/
theorem ReachesCycle.simulate (unique : ∀ a c d, Sim a c → Sim a d → c = d) (cyclic : ReachesCycle r a) :
    ReachesCycle s c := by
  obtain ⟨b, reached, cycle⟩ := cyclic
  obtain ⟨d, way, sim_d⟩ := reflTransGen_simulate Sim follow sim reached
  obtain ⟨b', first, back⟩ := TransGen.head'_iff.mp cycle
  obtain ⟨d', next, sim_d'⟩ := follow b d sim_d b' first
  obtain ⟨e, around, sim_e⟩ := reflTransGen_simulate Sim follow sim_d' back
  obtain rfl := unique b d e sim_d sim_e
  exact ⟨d, way, TransGen.head' next around⟩

end

/-! ## Chains -/

section
variable {α : Type} {r : α → α → Prop} {a : α} {k : Nat}

/-- From here so many steps can be made in a row. -/
def HasChain (r : α → α → Prop) : Nat → α → Prop
  | 0, _ => True
  | k + 1, a => ∃ b, r a b ∧ HasChain r k b

def LongestChain (r : α → α → Prop) (a : α) (k : Nat) : Prop := HasChain r k a ∧ ∀ j, HasChain r j a → j ≤ k

theorem HasChain.pred (chain : HasChain r (k + 1) a) : HasChain r k a := by
  induction k generalizing a with
  | zero => trivial
  | succ k ih =>
    obtain ⟨b, first, rest⟩ := chain
    exact ⟨b, first, ih rest⟩

theorem HasChain.of_le {j : Nat} (shorter : j ≤ k) (chain : HasChain r k a) : HasChain r j a := by
  induction shorter with
  | refl => exact chain
  | step _ ih => exact ih chain.pred

theorem longestChain_iff : LongestChain r a k ↔ HasChain r k a ∧ ¬HasChain r (k + 1) a := by
  constructor
  · rintro ⟨chain, longest⟩
    exact ⟨chain, fun longer => absurd (longest _ longer) (by omega)⟩
  · rintro ⟨chain, none_longer⟩
    refine ⟨chain, fun j other => ?_⟩
    by_contra longer
    exact none_longer (other.of_le (by omega))

theorem LongestChain.step (longest : LongestChain r a (k + 1)) : ∃ b, r a b ∧ LongestChain r b k := by
  obtain ⟨⟨b, first, rest⟩, none_longer⟩ := longestChain_iff.mp longest
  exact ⟨b, first, longestChain_iff.mpr ⟨rest, fun more => none_longer ⟨b, first, more⟩⟩⟩

theorem exists_longestChain (none_as_long : ¬HasChain r k a) : ∃ j < k, LongestChain r a j := by
  induction k with
  | zero => exact absurd trivial none_as_long
  | succ k ih =>
    by_cases chain : HasChain r k a
    · exact ⟨k, Nat.lt_succ_self k, longestChain_iff.mpr ⟨chain, none_as_long⟩⟩
    · obtain ⟨j, less, longest⟩ := ih chain
      exact ⟨j, Nat.lt_succ_of_lt less, longest⟩

theorem HasChain.of_transGen {b : α} (way : TransGen r a b) (chain : HasChain r k b) : HasChain r (k + 1) a := by
  induction way using TransGen.head_induction_on with
  | single last => exact ⟨b, last, chain⟩
  | head first _ ih => exact HasChain.pred ⟨_, first, ih⟩

theorem HasChain.simulate {β : Type} {s : β → β → Prop} (Sim : α → β → Prop)
    (follow : ∀ a c, Sim a c → ∀ b, r a b → ∃ d, s c d ∧ Sim b d) {c : β} (sim : Sim a c) (chain : HasChain r k a) :
    HasChain s k c := by
  induction k generalizing a c with
  | zero => trivial
  | succ k ih =>
    obtain ⟨b, first, rest⟩ := chain
    obtain ⟨d, next, sim⟩ := follow a c sim b first
    exact ⟨d, next, ih sim rest⟩

theorem ReachesCycle.hasChain (cyclic : ReachesCycle r a) (k : Nat) : HasChain r k a := by
  induction k generalizing a with
  | zero => trivial
  | succ k ih =>
    obtain ⟨b, first, cyclic⟩ := cyclic.step
    exact ⟨b, first, ih cyclic⟩

/-- A walk that makes as many steps as there are places comes to a place where it has been. -/
theorem reachesCycle_of_hasChain {Place : α → Prop} {bound : Nat}
    (bounded : ∀ places : List α, places.Nodup → (∀ a ∈ places, Place a) → places.length ≤ bound)
    (stays : ∀ a b, Place a → r a b → Place b) (start : Place a) (chain : HasChain r bound a) : ReachesCycle r a := by
  -- The places behind are distinct, and from each of them the walk has come here.
  have onward : ∀ k (behind : List α) a, behind.Nodup → (∀ b ∈ behind, Place b ∧ TransGen r b a) → Place a →
      HasChain r k a → bound ≤ behind.length + k → ReachesCycle r a := by
    intro k
    induction k with
    | zero =>
      intro behind a nodup came place _ enough
      by_cases again : a ∈ behind
      · exact ⟨a, .refl, (came a again).2⟩
      · have count := bounded (a :: behind) (List.nodup_cons.mpr ⟨again, nodup⟩) (by
          intro b mem
          rcases List.mem_cons.mp mem with rfl | mem
          · exact place
          · exact (came b mem).1)
        rw [List.length_cons] at count
        omega
    | succ k ih =>
      intro behind a nodup came place chain enough
      by_cases again : a ∈ behind
      · exact ⟨a, .refl, (came a again).2⟩
      · obtain ⟨b, first, rest⟩ := chain
        refine ReachesCycle.head first (ih (a :: behind) b (List.nodup_cons.mpr ⟨again, nodup⟩) ?_
          (stays a b place first) rest ?_)
        · intro c mem
          rcases List.mem_cons.mp mem with rfl | mem
          · exact ⟨place, .single first⟩
          · exact ⟨(came c mem).1, (came c mem).2.tail first⟩
        · rw [List.length_cons]
          omega
  exact onward bound [] a List.nodup_nil (by simp) start chain (by simp)

end

end ScriptLoader.Graph
