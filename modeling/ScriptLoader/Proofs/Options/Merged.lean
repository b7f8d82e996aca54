import ScriptLoader.Proofs.Options.Rendered

/-!
Options on top of others. Under their names the later ones override the earlier ones, whether an option has a
field of its own or not. It does not matter in which order three sets of options are put together, and no
options at all change nothing.
-/

set_option autoImplicit false
namespace ScriptLoader

namespace Fields
variable {α : Type} {fields added more : Fields α}

theorem names_insertAll (nodup : added.names.Nodup) (name : String) :
    name ∈ (fields.insertAll added).names ↔ name ∈ fields.names ∨ name ∈ added.names := by
  rw [← not_iff_not, ← get?_eq_none, get?_insertAll nodup, Option.or_eq_none_iff, get?_eq_none, get?_eq_none, not_or,
    and_comm]

theorem Increasing.nil_insertAll (increasing : fields.Increasing) : Fields.insertAll [] fields = fields := by
  have start : Increasing ([] : Fields α) := List.Pairwise.nil
  refine (start.insertAll fields).ext increasing ?_
  intro name
  rw [get?_insertAll increasing.nodup]
  exact Option.or_none

theorem Increasing.insertAll_assoc (increasing : fields.Increasing) (increasing' : added.Increasing)
    (increasing'' : more.Increasing) :
    (fields.insertAll added).insertAll more = fields.insertAll (added.insertAll more) := by
  refine ((increasing.insertAll added).insertAll more).ext (increasing.insertAll _) ?_
  intro name
  rw [get?_insertAll increasing''.nodup, get?_insertAll increasing'.nodup,
    get?_insertAll (increasing'.insertAll more).nodup, get?_insertAll increasing''.nodup, Option.or_assoc]

end Fields

namespace CompilerOptions
variable {o later last : CompilerOptions}

theorem WellFormed.toFields_merge (formed : o.WellFormed) (formed' : later.WellFormed) :
    (o.merge later).toFields = o.toFields.insertAll later.toFields := by
  refine (formed.merge formed').increasing_toFields.ext (formed.increasing_toFields.insertAll _) ?_
  intro name
  rw [formed.get?_merge formed', Fields.get?_insertAll formed'.increasing_toFields.nodup]

theorem WellFormed.merge_assoc (formed : o.WellFormed) (formed' : later.WellFormed) (formed'' : last.WellFormed) :
    (o.merge later).merge last = o.merge (later.merge last) := by
  have extra := formed.increasing.insertAll_assoc formed'.increasing formed''.increasing
  simp only [CompilerOptions.merge, Option.or_assoc, extra]

theorem clone_eq_self (increasing : o.extra.Increasing) : o.clone = o := by
  have extra : Fields.insertAll [] o.extra = o.extra := increasing.nil_insertAll
  simp only [clone, CompilerOptions.merge, empty, Option.or_none, extra]

theorem WellFormed.empty_merge (formed : o.WellFormed) : empty.merge o = o := clone_eq_self formed.increasing

theorem merge_empty (o : CompilerOptions) : o.merge empty = o := by
  simp only [merge, empty, Option.none_or]
  rfl

/-- Options that were read, and options that were put together of such. -/
inductive Obtained : CompilerOptions → Prop
  | read (base : String) (raw : Fields Json) : Obtained (ofFields base raw).1
  | merge {o later : CompilerOptions} : Obtained o → Obtained later → Obtained (o.merge later)

theorem Obtained.wellFormed (obtained : o.Obtained) : o.WellFormed := by
  induction obtained with
  | read base raw => exact wellFormed_ofFields base raw
  | merge _ _ formed formed' => exact formed.merge formed'

/-- Options on top of others override them name by name, with no name lost and none added; putting options together is
associative, no options at all make no difference on either side, and a copy is the same. -/
theorem merge_overrides_each_name (obtained : o.Obtained) (obtained' : later.Obtained) (obtained'' : last.Obtained) :
    (o.merge later).toFields = o.toFields.insertAll later.toFields ∧
    (∀ name, (o.merge later).toFields.get? name = (later.toFields.get? name).or (o.toFields.get? name)) ∧
    (∀ name, name ∈ (o.merge later).toFields.names ↔ name ∈ o.toFields.names ∨ name ∈ later.toFields.names) ∧
    (o.merge later).merge last = o.merge (later.merge last) ∧
    empty.merge o = o ∧ o.merge empty = o ∧ o.clone = o := by
  have formed := obtained.wellFormed
  have formed' := obtained'.wellFormed
  have rendered := formed.toFields_merge formed'
  refine ⟨rendered, formed.get?_merge formed', ?_, formed.merge_assoc formed' obtained''.wellFormed,
    formed.empty_merge, merge_empty o, formed.empty_merge⟩
  intro name
  rw [rendered, Fields.names_insertAll formed'.increasing_toFields.nodup]

/-- The options of a file that others extend. -/
def sharedOptions : CompilerOptions :=
  (ofFields "/p" [("lib", .array []), ("outDir", .string "out"), ("strict", .bool true)]).1

/-- The options of a file in another directory, with a path, an option without a field of its own, and one
that cannot be used. -/
def ownOptions : CompilerOptions :=
  (ofFields "/p/q" [("lib", .null), ("outDir", .string "../built"), ("paths", .object []), ("strict", .string "yes")]).1

theorem evaluated_samples :
    sharedOptions.toFields.names = ["lib", "outDir", "strict"] ∧
      ownOptions.toFields.names = ["lib", "outDir", "paths"] ∧ ownOptions.path .outDir = some "/p/built" := by
  decide +kernel

/-- A path and an option without a field are overridden, what could not be used overrides nothing, and the
rest is kept. -/
theorem merge_sharedOptions :
    let merged := sharedOptions.merge ownOptions
    (∀ name, name ∈ merged.toFields.names ↔ name ∈ ["lib", "outDir", "strict", "paths"]) ∧
      merged.toFields.get? "lib" = some .null ∧ merged.toFields.get? "outDir" = some (.string "/p/built") ∧
      merged.toFields.get? "strict" = sharedOptions.toFields.get? "strict" ∧ merged.clone = merged := by
  intro merged
  obtain ⟨shared, own, outDir⟩ := evaluated_samples
  have obtained : sharedOptions.Obtained := .read _ _
  have obtained' : ownOptions.Obtained := .read _ _
  obtain ⟨-, overridden, names, -⟩ := merge_overrides_each_name obtained obtained' obtained
  have copied := (merge_overrides_each_name (obtained.merge obtained') obtained obtained).2.2.2.2.2.2
  refine ⟨?_, ?_, ?_, ?_, copied⟩
  · intro name
    rw [names, shared, own]
    simp only [List.mem_cons, List.not_mem_nil, or_false]
    tauto
  · rw [overridden]
    rfl
  · have written : ownOptions.toFields.get? "outDir" = some (.string "/p/built") := by
      rw [get?_toFields, show OptionKey.ofName "outDir" = .path .outDir by decide, value?, outDir]
      rfl
    rw [overridden, written, Option.some_or]
  · have unset : ownOptions.toFields.get? "strict" = none := by
      rw [Fields.get?_eq_none, own]
      decide
    rw [overridden, unset, Option.none_or]

end CompilerOptions
end ScriptLoader
