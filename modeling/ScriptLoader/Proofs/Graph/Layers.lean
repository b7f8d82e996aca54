import ScriptLoader.Graph.Sort
import ScriptLoader.Proofs.Graph.Built
import Mathlib.Data.List.Sort

/-!
A sort that looks at the projects themselves instead of counting: a layer holds the projects whose dependencies
are all in earlier layers. Counting comes to the same layers, since the count of a project is at all times the
number of its dependencies that are not placed yet.
-/

set_option autoImplicit false
namespace ScriptLoader.Graph

/-! ## Counts that come from a function of the numbers -/

theorem modify_map_range (f : Nat → Int) (bound n : Nat) :
    ((List.range bound).map f).modify n (· - 1) = (List.range bound).map fun m => if m = n then f m - 1 else f m := by
  apply List.ext_getElem?
  intro i
  rw [List.getElem?_modify, List.getElem?_map, List.getElem?_map]
  by_cases inside : i < bound
  · by_cases same : n = i
    · simp [inside, same]
    · simp [inside, same, Ne.symm same]
  · have outside : (List.range bound)[i]? = none := List.getElem?_eq_none (by simpa using inside)
    simp [outside]

theorem release_map_range (f : Nat → Int) {bound : Nat} {released : List Nat} (nodup : released.Nodup)
    (inside : ∀ n ∈ released, n < bound) :
    release ((List.range bound).map f) released =
      ((List.range bound).map fun m => if m ∈ released then f m - 1 else f m, released.filter fun m => f m = 1) := by
  induction released generalizing f with
  | nil => simp [release]
  | cons n rest ih =>
    obtain ⟨absent, nodup_rest⟩ := List.nodup_cons.mp nodup
    have here := inside n List.mem_cons_self
    rw [release, modify_map_range, ih _ nodup_rest fun m mem => inside m (List.mem_cons_of_mem _ mem)]
    -- The rest does not hold the first number, so that its count stays what it is now.
    refine Prod.ext ?_ ?_
    · apply List.map_congr_left
      intro m _
      by_cases same : m = n
      · simp [same, absent]
      · simp [same]
    · have others : (rest.filter fun m => (if m = n then f m - 1 else f m) = 1) = rest.filter fun m => f m = 1 := by
        apply List.filter_congr
        intro m mem
        have differs : m ≠ n := fun same => absent (same ▸ mem)
        simp [differs]
      have zero : ((List.range bound).map fun m => if m = n then f m - 1 else f m)[n]? = some 0 ↔ f n = 1 := by
        simp only [List.getElem?_map, List.getElem?_range here, Option.map_some, if_true, Option.some.injEq]
        omega
      simp only [others, zero, List.filter_cons, decide_eq_true_eq]

/-! ## Layers -/

section
variable (g : Graph) (done left : List Nat)

def isReady (n : Nat) : Bool := (g.dependencies n).all done.contains

def ready : List Nat := left.filter (g.isReady done)

def waiting : List Nat := left.filter fun n => !g.isReady done n

theorem ready_append_waiting : (g.ready done left ++ g.waiting done left).Perm left :=
  List.filter_append_perm (g.isReady done) left

theorem length_waiting (some_ready : g.ready done left ≠ []) : (g.waiting done left).length < left.length := by
  have together := (g.ready_append_waiting done left).length_eq
  have positive := List.length_pos_iff.mpr some_ready
  rw [List.length_append] at together
  omega

end

/-- Takes layer after layer from the projects that are left. The second part holds those that fit into none. -/
def layersFrom (g : Graph) (done left : List Nat) : List (List Nat) × List Nat :=
  if g.ready done left = [] then ([], left)
  else
    let rest := layersFrom g (done ++ g.ready done left) (g.waiting done left)
    (g.ready done left :: rest.1, rest.2)
  termination_by left.length
  decreasing_by exact length_waiting g done left ‹_›

variable {g : Graph} {done left : List Nat} {n m : Nat}

theorem isReady_iff : g.isReady done n = true ↔ ∀ m ∈ g.dependencies n, m ∈ done := by
  simp [isReady, List.all_eq_true]

theorem isReady_append (ready : g.isReady done n = true) (more : List Nat) : g.isReady (done ++ more) n = true :=
  isReady_iff.mpr fun m depends => List.mem_append_left _ (isReady_iff.mp ready m depends)

theorem filter_waiting (more : List Nat) :
    ((g.waiting done left).filter fun n => !g.isReady (done ++ more) n) =
      left.filter fun n => !g.isReady (done ++ more) n := by
  rw [waiting, List.filter_filter]
  apply List.filter_congr
  intro n _
  by_cases now : g.isReady done n = true
  · simp [now, isReady_append now]
  · simp [now]

/-- What is left over in the end are the projects that wait for something outside of the layers. -/
theorem layersFrom_snd (g : Graph) (done left : List Nat) :
    (g.layersFrom done left).2 = left.filter fun n => !g.isReady (done ++ (g.layersFrom done left).1.flatten) n := by
  fun_induction layersFrom g done left with
  | case1 done left stopped =>
    symm
    rw [List.filter_eq_self]
    intro n mem
    have waits : n ∉ g.ready done left := by simp [stopped]
    simpa [ready, mem] using waits
  | case2 done left some_ready rest ih =>
    rw [ih, List.append_assoc, filter_waiting]
    rfl

/-! ## Counting -/

def unmet (g : Graph) (done : List Nat) (n : Nat) : Nat := (g.dependencies n).countP fun m => m ∉ done

theorem isReady_iff_unmet : g.isReady done n = true ↔ g.unmet done n = 0 := by
  simp [isReady_iff, unmet, List.countP_eq_zero]

/-- One more project that is done makes one less dependency for its dependents. -/
theorem unmet_concat (new : n ∉ done) (m : Nat) :
    g.unmet done m = g.unmet (done ++ [n]) m + if n ∈ g.dependencies m then 1 else 0 := by
  have nodup := g.nodup_dependencies m
  unfold unmet
  generalize g.dependencies m = dependencies at nodup
  induction dependencies with
  | nil => rfl
  | cons first rest ih =>
    obtain ⟨absent, nodup_rest⟩ := List.nodup_cons.mp nodup
    rw [List.countP_cons, List.countP_cons, ih nodup_rest]
    generalize rest.countP (fun m => decide (m ∉ done ++ [n])) = others
    by_cases same : first = n
    · subst same
      simp [new, absent]
    · by_cases held : first ∈ done
      · simp [held, Ne.symm same]
      · simp [held, same, Ne.symm same, Nat.add_right_comm]

/-- Every count is the number of dependencies that are not placed. -/
def Counted (g : Graph) (s : Sorting) : Prop := s.counts = g.numbers.map fun m => (g.unmet s.sequence m : Int)

theorem place_counted {s : Sorting} (counted : g.Counted s) (new : n ∉ s.sequence) (free : List Nat) :
    ∃ s', g.build.place (s, free) n = (s', free ++ (g.dependents n).filter (g.isReady (s.sequence ++ [n]))) ∧
      s'.sequence = s.sequence ++ [n] ∧ s'.batches = s.batches ∧ g.Counted s' := by
  have nodup : (g.dependents n).Nodup := List.nodup_range.filter _
  have inside : ∀ m ∈ g.dependents n, m < g.paths.length := fun m mem => List.mem_range.mp (mem_dependents.mp mem).1
  have released := release_map_range (fun m => (g.unmet s.sequence m : Int)) nodup inside
  rw [← numbers, ← counted] at released
  have placed : g.build.place (s, free) n =
      ({ s with sequence := s.sequence ++ [n], counts := g.numbers.map fun m =>
          if m ∈ g.dependents n then (g.unmet s.sequence m : Int) - 1 else g.unmet s.sequence m },
        free ++ (g.dependents n).filter fun m => (g.unmet s.sequence m : Int) = 1) := by
    simp only [Built.place, getD_edges_build, released]
  have free_now : ((g.dependents n).filter fun m => (g.unmet s.sequence m : Int) = 1) =
      (g.dependents n).filter (g.isReady (s.sequence ++ [n])) := by
    apply List.filter_congr
    intro m mem
    have one_less := g.unmet_concat new m
    rw [if_pos (mem_dependents.mp mem).2] at one_less
    rw [Bool.eq_iff_iff, isReady_iff_unmet, decide_eq_true_eq]
    omega
  rw [free_now] at placed
  refine ⟨_, placed, rfl, rfl, ?_⟩
  apply List.map_congr_left
  intro m mem
  dsimp only
  have one_less := g.unmet_concat new m
  by_cases depends : n ∈ g.dependencies m
  · rw [if_pos depends] at one_less
    rw [if_pos (mem_dependents.mpr ⟨mem, depends⟩)]
    omega
  · rw [if_neg depends] at one_less
    rw [if_neg fun held => depends (mem_dependents.mp held).2]
    omega

/-- A batch sets free the projects that become ready through it. -/
theorem foldl_place_counted {batch : List Nat} {s : Sorting} (counted : g.Counted s)
    (nodup : (s.sequence ++ batch).Nodup) (free : List Nat) :
    ∃ s' more, batch.foldl g.build.place (s, free) = (s', free ++ more) ∧ s'.sequence = s.sequence ++ batch ∧
      s'.batches = s.batches ∧ g.Counted s' ∧ more.Nodup ∧
      ∀ m, m ∈ more ↔ m ∈ g.numbers ∧ g.isReady s.sequence m = false ∧ g.isReady (s.sequence ++ batch) m = true := by
  induction batch generalizing s free with
  | nil =>
    refine ⟨s, [], by simp, by simp, rfl, counted, List.nodup_nil, ?_⟩
    intro m
    by_cases now : g.isReady s.sequence m = true <;> simp [now]
  | cons n rest ih =>
    have new : n ∉ s.sequence := fun held => by
      simpa using (List.nodup_append.mp nodup).2.2 n held n List.mem_cons_self
    obtain ⟨s₁, placed, sequence₁, batches₁, counted₁⟩ := place_counted counted new free
    obtain ⟨s₂, more, later, sequence₂, batches₂, counted₂, nodup_more, mem_more⟩ :=
      ih counted₁ (by simpa [sequence₁] using nodup) (free ++ (g.dependents n).filter (g.isReady (s.sequence ++ [n])))
    rw [sequence₁] at sequence₂ mem_more
    simp only [List.append_assoc, List.singleton_append] at sequence₂ mem_more
    refine ⟨s₂, (g.dependents n).filter (g.isReady (s.sequence ++ [n])) ++ more, ?_, sequence₂,
      batches₂.trans batches₁, counted₂, ?_, ?_⟩
    · rw [List.foldl_cons, placed, later, List.append_assoc]
    · refine List.nodup_append.mpr ⟨(List.nodup_range.filter _).filter _, nodup_more, ?_⟩
      rintro m first _ second rfl
      have now := (List.mem_filter.mp first).2
      simp [((mem_more m).mp second).2.1] at now
    · intro m
      have one_less := g.unmet_concat new m
      -- Whoever becomes ready does so with this project or with a later one of the batch.
      rw [List.mem_append, List.mem_filter, mem_dependents, mem_more]
      have waits : n ∈ g.dependencies m → g.isReady s.sequence m = false := by
        intro depends
        rw [if_pos depends] at one_less
        rw [Bool.eq_false_iff, ne_eq, isReady_iff_unmet]
        omega
      have stays : n ∉ g.dependencies m → g.isReady (s.sequence ++ [n]) m = g.isReady s.sequence m := by
        intro independent
        rw [if_neg independent] at one_less
        rw [Bool.eq_iff_iff, isReady_iff_unmet, isReady_iff_unmet]
        omega
      by_cases depends : n ∈ g.dependencies m
      · by_cases now : g.isReady (s.sequence ++ [n]) m = true
        · have then_ready : g.isReady (s.sequence ++ n :: rest) m = true := by simpa using isReady_append now rest
          simp [depends, now, waits depends, then_ready]
        · simp [depends, now, waits depends]
      · simp [depends, stays depends]

/-- No project is lost and none comes twice. -/
theorem layersFrom_perm (g : Graph) (done left : List Nat) :
    ((g.layersFrom done left).1.flatten ++ (g.layersFrom done left).2).Perm left := by
  fun_induction layersFrom g done left with
  | case1 done left stopped => simp
  | case2 done left some_ready rest ih =>
    rw [List.flatten_cons, List.append_assoc]
    exact (ih.append_left _).trans (g.ready_append_waiting done left)

/-! ## Counting finds the layers -/

/-- Where a sort stands between two layers: what is left are the present projects that are not done, and what is done
waits for nothing. -/
structure Halted (g : Graph) (done left : List Nat) : Prop where
  nodup : done.Nodup
  increasing : left.Pairwise (· < ·)
  mem_left : ∀ m, m ∈ left ↔ g.isPresent m = true ∧ m ∉ done
  closed : ∀ m ∈ done, g.isReady done m = true

theorem mem_present : n ∈ g.present ↔ g.isPresent n = true := by
  rw [present, List.mem_filter, numbers, List.mem_range]
  exact ⟨fun held => held.2, fun present => ⟨lt_length_of_isPresent present, present⟩⟩

theorem increasing_present (g : Graph) : g.present.Pairwise (· < ·) := List.pairwise_lt_range.filter _

theorem Halted.start (g : Graph) : g.Halted [] g.present where
  nodup := List.nodup_nil
  increasing := g.increasing_present
  mem_left := by simp [mem_present]
  closed := by simp

theorem Halted.nodup_append_ready (halted : g.Halted done left) : (done ++ g.ready done left).Nodup := by
  have nodup_left : left.Nodup := halted.increasing.imp Nat.ne_of_lt
  refine List.nodup_append.mpr ⟨halted.nodup, nodup_left.filter _, ?_⟩
  rintro m held _ free rfl
  exact ((halted.mem_left m).mp (List.mem_of_mem_filter free)).2 held

theorem Halted.next (halted : g.Halted done left) :
    g.Halted (done ++ g.ready done left) (g.waiting done left) where
  nodup := halted.nodup_append_ready
  increasing := halted.increasing.filter _
  mem_left := by
    intro m
    simp only [waiting, ready, List.mem_filter, List.mem_append, halted.mem_left m]
    by_cases now : g.isReady done m = true
    · simp [now]
      tauto
    · simp [now]
  closed := by
    intro m mem
    rcases List.mem_append.mp mem with held | free
    · exact isReady_append (halted.closed m held) _
    · exact isReady_append (List.mem_filter.mp free).2 _

/-- Whoever waits for something is left. -/
theorem Halted.mem_left_of_waits (halted : g.Halted done left) (waits : g.isReady done m = false) : m ∈ left := by
  have not_done : m ∉ done := fun held => by simp [halted.closed m held] at waits
  have some_dependency : ∃ n, n ∈ g.dependencies m := by
    by_contra none
    have ready : g.isReady done m = true := isReady_iff.mpr fun n depends => absurd ⟨n, depends⟩ none
    simp [ready] at waits
  obtain ⟨n, depends⟩ := some_dependency
  exact (halted.mem_left m).mpr ⟨isPresent_of_mem_mentioned (mem_dependencies.mp depends).1, not_done⟩

/-- Both the next batch and the next layer are in increasing order, so that it is enough to compare their members. -/
theorem Halted.mergeSort_eq_ready (halted : g.Halted done left) {free : List Nat} (nodup : free.Nodup)
    (members : ∀ m, m ∈ free ↔ m ∈ left ∧ g.isReady done m = true) : free.mergeSort = g.ready done left := by
  have sorted : (g.ready done left).Pairwise (· < ·) := halted.increasing.filter _
  have same : free.Perm (g.ready done left) := by
    rw [List.perm_ext_iff_of_nodup nodup (sorted.imp Nat.ne_of_lt)]
    intro m
    rw [members, ready, List.mem_filter]
  exact ((List.mergeSort_perm _ _).trans same).eq_of_pairwise' (List.pairwise_mergeSort' (· ≤ ·) free)
    (sorted.imp Nat.le_of_lt)

theorem placeBatches_eq_layers (g : Graph) (done left : List Nat) (halted : g.Halted done left) {s : Sorting}
    (counted : g.Counted s) (sequence : s.sequence = done) :
    g.Counted (g.build.placeBatches s (g.ready done left)) ∧
      (g.build.placeBatches s (g.ready done left)).sequence = done ++ (g.layersFrom done left).1.flatten ∧
      (g.build.placeBatches s (g.ready done left)).batches = s.batches ++ (g.layersFrom done left).1 := by
  induction done, left using layersFrom.induct g generalizing s with
  | case1 done left stopped =>
    rw [Built.placeBatches, if_pos stopped, layersFrom, if_pos stopped]
    simp [counted, sequence]
  | case2 done left some_ready ih =>
    rw [Built.placeBatches, if_neg some_ready, layersFrom, if_neg some_ready, Built.placeBatch]
    obtain ⟨s', free, placed, sequence', batches', counted', nodup, members⟩ :=
      foldl_place_counted (s := { s with batches := s.batches ++ [g.ready done left] }) counted
        (by rw [sequence]; exact halted.nodup_append_ready) []
    rw [sequence] at sequence' members
    -- What the batch has set free is the next layer.
    have next : free.mergeSort = g.ready (done ++ g.ready done left) (g.waiting done left) := by
      apply halted.next.mergeSort_eq_ready nodup
      intro m
      rw [members, waiting, List.mem_filter]
      constructor
      · rintro ⟨-, waits, free⟩
        exact ⟨⟨halted.mem_left_of_waits waits, by simp [waits]⟩, free⟩
      · rintro ⟨⟨held, waits⟩, free⟩
        have present := ((halted.mem_left m).mp held).1
        exact ⟨List.mem_range.mpr (lt_length_of_isPresent present), by simpa using waits, free⟩
    simp only [placed, List.nil_append, next]
    obtain ⟨counted'', sequence'', batches''⟩ := ih halted.next counted' sequence'
    refine ⟨counted'', ?_, ?_⟩
    · simp [sequence'']
    · simp [batches'', batches']

theorem Counted.getD {s : Sorting} (counted : g.Counted s) (mem : n ∈ g.present) :
    s.counts.getD n 0 = g.unmet s.sequence n := by
  have inside := lt_length_of_isPresent (mem_present.mp mem)
  rw [counted, List.getD_eq_getElem?_getD, List.getElem?_map, numbers, List.getElem?_range inside]
  rfl

theorem counted_start (g : Graph) : g.Counted { counts := g.build.counts } := by
  rw [Counted, Built.counts, waits_build, List.map_map]
  apply List.map_congr_left
  intro n _
  simp [unmet]

theorem numbers_build (g : Graph) : g.build.numbers = g.present := by
  rw [Built.numbers, edges_build, List.length_map, present]
  simp only [numbers, List.length_range, getD_present_build]

/-- Counting gives the layers, and what still counts something is what is left over. -/
theorem sort_eq_layers (g : Graph) :
    g.sort = ⟨(g.layersFrom [] g.present).1.flatten, (g.layersFrom [] g.present).1,
      !(g.layersFrom [] g.present).2.isEmpty, (g.layersFrom [] g.present).2⟩ := by
  have first : (g.present.filter fun n => g.build.counts.getD n 0 = 0) = g.ready [] g.present := by
    apply List.filter_congr
    intro n mem
    rw [Bool.eq_iff_iff, isReady_iff_unmet, decide_eq_true_eq, g.counted_start.getD mem]
    exact Int.natCast_eq_zero
  obtain ⟨counted, sequence, batches⟩ := g.placeBatches_eq_layers [] g.present (.start g) g.counted_start rfl
  have rest : (g.present.filter fun n =>
      0 < (g.build.placeBatches { counts := g.build.counts } (g.ready [] g.present)).counts.getD n 0) =
      (g.layersFrom [] g.present).2 := by
    rw [g.layersFrom_snd]
    apply List.filter_congr
    intro n mem
    rw [counted.getD mem, sequence, Bool.eq_iff_iff, decide_eq_true_eq, Bool.not_eq_true', Bool.eq_false_iff, ne_eq,
      isReady_iff_unmet]
    omega
  have together := (g.layersFrom_perm [] g.present).length_eq
  simp only [sort, Built.sort, numbers_build]
  rw [first, rest, sequence, batches]
  generalize g.layersFrom [] g.present = layers at together
  rw [List.length_append] at together
  -- A cycle is told by the number of projects that were placed, and layers by what is left over.
  split
  · rename_i all
    have nothing : layers.2 = [] := List.eq_nil_of_length_eq_zero (by rw [List.nil_append] at all; omega)
    simp [nothing]
  · rename_i not_all
    have something : layers.2 ≠ [] := by
      intro nothing
      rw [nothing, List.length_nil, Nat.add_zero] at together
      exact not_all (by simpa using together)
    simp [something]

end ScriptLoader.Graph
