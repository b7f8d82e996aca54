import ScriptLoader.Fields
import Mathlib.Data.List.Nodup

/-!
Fields as maps: what a name has after an insertion, and that increasing names leave nothing else to a list than the
map it stands for.
-/

set_option autoImplicit false
namespace ScriptLoader.Fields
variable {α : Type} {fields added : Fields α}

def Increasing (fields : Fields α) : Prop := fields.names.Pairwise (· < ·)

theorem Increasing.nodup (increasing : fields.Increasing) : fields.names.Nodup := increasing.imp String.ne_of_lt

theorem increasing_cons {name : String} {value : α} :
    Increasing ((name, value) :: fields) ↔ (∀ other ∈ fields.names, name < other) ∧ fields.Increasing :=
  List.pairwise_cons

theorem get?_cons (name other : String) (value : α) (fields : Fields α) :
    get? ((other, value) :: fields) name = if name = other then some value else fields.get? name := by
  by_cases same : name = other
  · simp [get?, same]
  · simp [get?, List.lookup_cons, same, beq_false_of_ne same]

theorem get?_eq_none {name : String} : fields.get? name = none ↔ name ∉ fields.names := by
  rw [get?, List.lookup_eq_none_iff, names, List.mem_map]
  constructor
  · rintro absent ⟨field, mem, rfl⟩
    simpa using absent field mem
  · intro absent field mem
    simpa using fun same : name = field.1 => absent ⟨field, mem, same.symm⟩

theorem get?_eq_some (nodup : fields.names.Nodup) {name : String} {value : α} :
    fields.get? name = some value ↔ (name, value) ∈ fields := by
  induction fields with
  | nil => simp [get?]
  | cons field rest ih =>
    obtain ⟨first, held⟩ := field
    obtain ⟨absent, nodup_rest⟩ := List.nodup_cons.mp nodup
    rw [get?_cons, List.mem_cons, Prod.mk.injEq]
    by_cases same : name = first
    · have none_later : (first, value) ∉ rest := fun mem => absent (List.mem_map.mpr ⟨_, mem, rfl⟩)
      simp [same, none_later, eq_comm]
    · simpa [same] using ih nodup_rest

theorem get?_insert (name other : String) (value : α) (fields : Fields α) :
    (fields.insert name value).get? other = if other = name then some value else fields.get? other := by
  induction fields with
  | nil => rw [insert, get?_cons]
  | cons field rest ih =>
    obtain ⟨first, held⟩ := field
    rw [insert]
    split
    · rw [get?_cons]
    · split
      · rename_i same
        rw [get?_cons, get?_cons, same]
        by_cases found : other = first <;> simp [found]
      · rename_i differs
        rw [get?_cons, get?_cons, ih]
        by_cases found : other = first
        · simp [found, Ne.symm differs]
        · simp [found]

theorem mem_names_insert {name other : String} {value : α} :
    other ∈ (fields.insert name value).names ↔ other = name ∨ other ∈ fields.names := by
  rw [← not_iff_not, ← get?_eq_none, get?_insert, not_or, ← get?_eq_none]
  by_cases same : other = name <;> simp [same]

theorem Increasing.insert (increasing : fields.Increasing) (name : String) (value : α) :
    (fields.insert name value).Increasing := by
  induction fields with
  | nil => simp [Fields.insert, Increasing, names]
  | cons field rest ih =>
    obtain ⟨first, held⟩ := field
    obtain ⟨least, increasing_rest⟩ := increasing_cons.mp increasing
    rw [Fields.insert]
    split
    · rename_i before
      refine increasing_cons.mpr ⟨?_, increasing⟩
      intro other mem
      rcases List.mem_cons.mp mem with rfl | mem
      · exact before
      · exact String.lt_trans before (least other mem)
    · split
      · rename_i same
        exact increasing_cons.mpr ⟨same ▸ least, increasing_rest⟩
      · rename_i not_before differs
        refine increasing_cons.mpr ⟨?_, ih increasing_rest⟩
        intro other mem
        rcases mem_names_insert.mp mem with rfl | mem
        · rcases Std.lt_trichotomy other first with before | same | after
          · exact absurd before not_before
          · exact absurd same differs
          · exact after
        · exact least other mem

theorem Increasing.insertAll (increasing : fields.Increasing) (added : List (String × α)) :
    (fields.insertAll added).Increasing := by
  induction added generalizing fields with
  | nil => exact increasing
  | cons field rest ih => exact ih (increasing.insert field.1 field.2)

theorem get?_insertAll (nodup : added.names.Nodup) (fields : Fields α) (name : String) :
    (fields.insertAll added).get? name = (added.get? name).or (fields.get? name) := by
  induction added generalizing fields with
  | nil => rfl
  | cons field rest ih =>
    obtain ⟨first, value⟩ := field
    obtain ⟨absent, nodup_rest⟩ := List.nodup_cons.mp nodup
    have later : (fields.insertAll ((first, value) :: rest)).get? name =
        (get? rest name).or ((fields.insert first value).get? name) := ih nodup_rest _
    rw [later, get?_insert, get?_cons]
    by_cases same : name = first
    · have none_later : get? rest name = none := get?_eq_none.mpr (same ▸ absent)
      simp [same, same ▸ none_later]
    · simp [same]

theorem mem_of_get?_eq_some {name : String} {value : α} (found : fields.get? name = some value) :
    name ∈ fields.names := by
  by_contra absent
  rw [get?_eq_none.mpr absent] at found
  cases found

/-- Two lists with increasing names that give every name the same value are the same list. -/
theorem Increasing.ext {other : Fields α} (increasing : fields.Increasing) (increasing' : other.Increasing)
    (same : ∀ name, fields.get? name = other.get? name) : fields = other := by
  induction fields generalizing other with
  | nil =>
    cases other with
    | nil => rfl
    | cons field rest =>
      obtain ⟨name, value⟩ := field
      have found := same name
      rw [get?_cons, if_pos rfl] at found
      cases found
  | cons field rest ih =>
    obtain ⟨name, value⟩ := field
    cases other with
    | nil =>
      have found := same name
      rw [get?_cons, if_pos rfl] at found
      cases found
    | cons field' rest' =>
      obtain ⟨name', value'⟩ := field'
      obtain ⟨least, increasing_rest⟩ := increasing_cons.mp increasing
      obtain ⟨least', increasing_rest'⟩ := increasing_cons.mp increasing'
      have mem : name ∈ names ((name', value') :: rest') := by
        have found : get? ((name', value') :: rest') name = some value := by rw [← same, get?_cons, if_pos rfl]
        exact mem_of_get?_eq_some found
      have mem' : name' ∈ names ((name, value) :: rest) := by
        have found : get? ((name, value) :: rest) name' = some value' := by rw [same, get?_cons, if_pos rfl]
        exact mem_of_get?_eq_some found
      -- Each of the first names is in both lists, and the least of both.
      have first : name = name' := by
        rcases List.mem_cons.mp mem with equal | later
        · exact equal
        · rcases List.mem_cons.mp mem' with equal | later'
          · exact equal.symm
          · exact absurd (String.lt_trans (least' name later) (least name' later')) (String.lt_irrefl name')
      subst first
      have values : value = value' := by
        have found := same name
        rw [get?_cons, get?_cons, if_pos rfl, if_pos rfl] at found
        exact Option.some.inj found
      subst values
      congr 1
      refine ih increasing_rest increasing_rest' ?_
      intro other
      by_cases equal : other = name
      · subst equal
        rw [get?_eq_none.mpr fun mem => String.lt_irrefl other (least other mem),
          get?_eq_none.mpr fun mem => String.lt_irrefl other (least' other mem)]
      · have found := same other
        rwa [get?_cons, get?_cons, if_neg equal, if_neg equal] at found

theorem get?_filter (fields : Fields α) (kept : String → Bool) (name : String) :
    get? (fields.filter fun field => kept field.1) name = if kept name then fields.get? name else none := by
  induction fields with
  | nil => simp [get?]
  | cons field rest ih =>
    obtain ⟨other, value⟩ := field
    rw [List.filter_cons]
    by_cases same : name = other
    · subst same
      cases stays : kept name <;> simp [stays, ih, get?_cons]
    · cases stays : kept other <;> simp [ih, get?_cons, same]

theorem Increasing.filter (increasing : fields.Increasing) (kept : String × α → Bool) :
    Increasing (List.filter kept fields) :=
  List.Pairwise.sublist (List.filter_sublist.map Prod.fst) increasing

/-- A map is put back in order from its pairs, in whichever order they come. -/
theorem ofList_of_perm {pairs : List (String × α)} (increasing : fields.Increasing) (perm : pairs.Perm fields) :
    ofList pairs = fields := by
  have nodup : (names pairs).Nodup := (perm.map Prod.fst).nodup_iff.mpr increasing.nodup
  have empty : Increasing ([] : Fields α) := List.Pairwise.nil
  refine (empty.insertAll pairs).ext increasing ?_
  intro name
  have same : get? pairs name = fields.get? name := by
    ext value
    rw [get?_eq_some nodup, get?_eq_some increasing.nodup, perm.mem_iff]
  rw [get?_insertAll nodup, same]
  exact Option.or_none

end ScriptLoader.Fields
