import ScriptLoader.Proofs.Graph.Layers
import ScriptLoader.Proofs.Graph.Walks
import Mathlib.Data.List.Induction
import Mathlib.Data.List.Perm.Subperm

/-!
What the order of a graph says about its cycles. Projects come after all they depend on, each present
project is either in the order or left over, and left over are those that depend on a cycle.
-/

set_option autoImplicit false
namespace ScriptLoader.Graph

open Relation

variable {g : Graph} {n m : Nat}

section
variable (g) (done left : List Nat)

theorem mem_done_of_mem_ready (ready : n ∈ g.ready done left) (depends : g.DependsOn n m) : m ∈ done :=
  isReady_iff.mp (List.mem_filter.mp ready).2 m depends

theorem layersFrom_dependencies {before after : List Nat}
    (placed : (g.layersFrom done left).1.flatten = before ++ n :: after) (depends : g.DependsOn n m) :
    m ∈ done ∨ m ∈ before := by
  induction done, left using layersFrom.induct g generalizing before with
  | case1 done left stopped =>
    rw [layersFrom, if_pos stopped] at placed
    simp at placed
  | case2 done left some_ready ih =>
    rw [layersFrom, if_neg some_ready] at placed
    have whole : g.ready done left ++
        (g.layersFrom (done ++ g.ready done left) (g.waiting done left)).1.flatten = before ++ n :: after := by
      simpa using placed
    -- Either the project comes after the first batch or it is in it.
    rcases List.append_eq_append_iff.mp whole with ⟨tail, before_eq, later⟩ | ⟨tail, ready_eq, later⟩
    · rcases ih later with earlier | earlier
      · rcases List.mem_append.mp earlier with mem | mem
        · exact .inl mem
        · exact .inr (by simp [before_eq, mem])
      · exact .inr (by simp [before_eq, earlier])
    · cases tail with
      | nil =>
        have first : _ = [] ++ n :: after := later.symm
        rcases ih first with earlier | none
        · simpa [ready_eq] using earlier
        · cases none
      | cons head others =>
        obtain ⟨rfl, -⟩ := List.cons_eq_cons.mp later
        exact .inl (g.mem_done_of_mem_ready done left (by simp [ready_eq]) depends)

theorem layersFrom_stuck (stuck : n ∈ (g.layersFrom done left).2) :
    ∃ m, g.DependsOn n m ∧ m ∉ done ++ (g.layersFrom done left).1.flatten := by
  rw [g.layersFrom_snd] at stuck
  have waits : ¬∀ m ∈ g.dependencies n, m ∈ done ++ (g.layersFrom done left).1.flatten := by
    rw [← isReady_iff]
    simpa using (List.mem_filter.mp stuck).2
  push Not at waits
  exact waits

end

theorem sequence_append_stuck (g : Graph) : (g.sort.sequence ++ g.sort.stuck).Perm g.present := by
  rw [sort_eq_layers]
  exact g.layersFrom_perm _ _

theorem nodup_sequence_append_stuck (g : Graph) : (g.sort.sequence ++ g.sort.stuck).Nodup :=
  g.sequence_append_stuck.nodup_iff.mpr (List.nodup_range.filter _)

theorem nodup_sequence (g : Graph) : g.sort.sequence.Nodup := (List.nodup_append.mp g.nodup_sequence_append_stuck).1

theorem mem_sequence_or_stuck : n ∈ g.sort.sequence ∨ n ∈ g.sort.stuck ↔ g.isPresent n = true := by
  rw [← List.mem_append, g.sequence_append_stuck.mem_iff, mem_present]

theorem mem_before_of_dependsOn {before after : List Nat} (placed : g.sort.sequence = before ++ n :: after)
    (depends : g.DependsOn n m) : m ∈ before := by
  rw [sort_eq_layers] at placed
  exact (g.layersFrom_dependencies _ _ placed depends).resolve_left (by simp)

theorem mem_before_of_transGen {before after : List Nat} (placed : g.sort.sequence = before ++ n :: after)
    (depends : TransGen g.DependsOn n m) : m ∈ before := by
  induction depends with
  | single depends => exact mem_before_of_dependsOn placed depends
  | tail _ depends ih =>
    obtain ⟨first, second, rfl⟩ := List.append_of_mem ih
    have earlier := mem_before_of_dependsOn (by simpa using placed) depends
    exact List.mem_append_left _ earlier

/-- No project depends on one that comes later. -/
theorem pairwise_sequence (g : Graph) : g.sort.sequence.Pairwise fun n m => ¬TransGen g.DependsOn n m := by
  rw [List.pairwise_iff_getElem]
  intro i j inside_i inside_j less depends
  have placed : g.sort.sequence = g.sort.sequence.take i ++ g.sort.sequence[i] :: g.sort.sequence.drop (i + 1) := by
    simp
  obtain ⟨k, inside_k, same⟩ := List.mem_take_iff_getElem.mp (mem_before_of_transGen placed depends)
  have := (g.nodup_sequence.getElem_inj_iff).mp same
  omega

theorem stuck_step (stuck : n ∈ g.sort.stuck) : ∃ m, g.DependsOn n m ∧ m ∈ g.sort.stuck := by
  have either := fun m (depends : g.DependsOn n m) => mem_sequence_or_stuck.mpr depends.isPresent
  rw [sort_eq_layers] at stuck either ⊢
  obtain ⟨m, depends, not_placed⟩ := g.layersFrom_stuck _ _ stuck
  exact ⟨m, depends, (either m depends).resolve_left (by simpa using not_placed)⟩

/-- A project in the order depends on no cycle: by induction on its place, since what it depends on stands before it. -/
theorem not_reachesCycle_of_mem_sequence (placed : n ∈ g.sort.sequence) : ¬ReachesCycle g.DependsOn n := by
  -- The induction is on the part of the order that ends at the project.
  have by_place : ∀ before after : List Nat, g.sort.sequence = before ++ after →
      ∀ n ∈ before, ¬ReachesCycle g.DependsOn n := by
    intro before
    induction before using List.reverseRecOn with
    | nil => simp
    | append_singleton before last ih =>
      intro after whole n mem cyclic
      have earlier := ih (last :: after) (by simpa using whole)
      rcases List.mem_append.mp mem with mem | mem
      · exact earlier n mem cyclic
      · obtain rfl := List.mem_singleton.mp mem
        obtain ⟨m, depends, cyclic⟩ := cyclic.step
        exact earlier m (mem_before_of_dependsOn (by simpa using whole) depends) cyclic
  exact by_place _ [] (by simp) n placed

theorem length_le_of_isPresent {numbers : List Nat} (nodup : numbers.Nodup)
    (present : ∀ n ∈ numbers, g.isPresent n = true) : numbers.length ≤ g.paths.length := by
  have within : numbers.Subperm (List.range g.paths.length) :=
    nodup.subperm fun n mem => List.mem_range.mpr (lt_length_of_isPresent (present n mem))
  simpa using within.length_le

/-- A project that is left over depends on a cycle: it waits for something else that is left over, and so on without
end, while only so many projects are present. -/
theorem reachesCycle_of_mem_stuck (stuck : n ∈ g.sort.stuck) : ReachesCycle g.DependsOn n := by
  have endless : ∀ k n, n ∈ g.sort.stuck → HasChain g.DependsOn k n := by
    intro k
    induction k with
    | zero => exact fun _ _ => trivial
    | succ k ih =>
      intro n stuck
      obtain ⟨m, depends, stuck⟩ := stuck_step stuck
      exact ⟨m, depends, ih m stuck⟩
  exact reachesCycle_of_hasChain (fun _ nodup present => length_le_of_isPresent nodup present)
    (fun _ _ _ depends => DependsOn.isPresent depends) (mem_sequence_or_stuck.mp (.inr stuck)) (endless _ n stuck)

theorem mem_sequence : n ∈ g.sort.sequence ↔ g.isPresent n = true ∧ ¬ReachesCycle g.DependsOn n := by
  constructor
  · exact fun placed => ⟨mem_sequence_or_stuck.mp (.inl placed), not_reachesCycle_of_mem_sequence placed⟩
  · rintro ⟨present, acyclic⟩
    exact (mem_sequence_or_stuck.mpr present).resolve_right fun stuck => acyclic (reachesCycle_of_mem_stuck stuck)

theorem sequence_eq_flatten (g : Graph) : g.sort.sequence = g.sort.batches.flatten := by rw [sort_eq_layers]

theorem isCyclic_iff (g : Graph) : g.sort.isCyclic = true ↔ g.sort.stuck ≠ [] := by
  rw [sort_eq_layers]
  simp

theorem stuck_eq_nil (no_cycle : g.cycle? g.sort = none) : g.sort.stuck = [] := by
  simpa [cycle?, isCyclic_iff] using no_cycle

theorem nodup_sequence_paths (g : Graph) : (g.sort.sequence.map g.path).Nodup := by
  refine List.Nodup.map_on ?_ g.nodup_sequence
  intro n mem_n m mem_m same
  exact eq_of_path_eq (mem_sequence.mp mem_n).1 (getElem?_of_isPresent (mem_sequence.mp mem_m).1) same

end ScriptLoader.Graph
