import ScriptLoader.Options.Reader
import ScriptLoader.Proofs.Fields

/-!
Compiler options under their names. An option with a field of its own is looked up by its name as any other, and options
that are put on top of others override them name by name.
-/

set_option autoImplicit false
namespace ScriptLoader

namespace OptionKey

def name : OptionKey → String
  | .moduleKind => "module"
  | .resolution => "moduleResolution"
  | .target => "target"
  | .jsx => "jsx"
  | .path p => p.name
  | .flag f => f.name
  | .extra => ""

def known : List OptionKey :=
  [.moduleKind, .resolution, .target] ++ Flag.all.map .flag ++ PathOption.all.map .path ++ [.jsx]

theorem nodup_known : known.Nodup := by decide

theorem mem_known : ∀ key : OptionKey, key ≠ .extra → key ∈ known
  | .moduleKind, _ => by decide
  | .resolution, _ => by decide
  | .target, _ => by decide
  | .jsx, _ => by decide
  | .path p, _ => by cases p <;> decide
  | .flag f, _ => by cases f <;> decide

theorem ofName_name {key : OptionKey} (own : key ≠ .extra) : ofName key.name = key := by
  have all : ∀ key ∈ known, ofName key.name = key := by decide
  exact all key (mem_known key own)

theorem name_ofName {written : String} (own : ofName written ≠ .extra) : (ofName written).name = written := by
  unfold ofName at own ⊢
  split
  · rename_i same
    exact same.symm
  · split
    · rename_i same
      exact same.symm
    · split
      · rename_i same
        exact same.symm
      · split
        · rename_i same
          exact same.symm
        · split
          · rename_i found
            have same := List.find?_some found
            exact of_decide_eq_true same
          · split
            · rename_i found
              have same := List.find?_some found
              exact of_decide_eq_true same
            · simp_all

end OptionKey

namespace CompilerOptions
variable {o later : CompilerOptions}

def value? (o : CompilerOptions) : OptionKey → Option Json
  | .moduleKind => o.moduleKind.map fun kind => .string kind.word
  | .resolution => o.resolution.map fun kind => .string kind.word
  | .target => o.target.map fun target => .string target.word
  | .jsx => o.jsx.map fun value => .string (Text.Utf8.shown value)
  | .path p => (o.path p).map fun value => .string (Text.Utf8.shown value)
  | .flag f => (o.flag f).map .bool
  | .extra => none

theorem value?_merge (o later : CompilerOptions) (key : OptionKey) :
    (o.merge later).value? key = (later.value? key).or (o.value? key) := by
  cases key with
  | extra => rfl
  | _ => exact Option.map_or

theorem filterMap_cons_toList {α β : Type} (f : α → Option β) (a : α) (rest : List α) :
    (a :: rest).filterMap f = (f a).toList ++ rest.filterMap f := by
  cases set : f a <;> simp [set]

theorem known_eq (o : CompilerOptions) :
    o.known = OptionKey.known.filterMap fun key => (o.value? key).map fun value => (key.name, value) := by
  simp only [known, OptionKey.known, List.filterMap_append, List.filterMap_map,
    filterMap_cons_toList, List.filterMap_nil,
    List.append_nil, List.append_assoc, value?, OptionKey.name, Option.map_map, Function.comp_def]

theorem ne_extra_of_value? {key : OptionKey} {value : Json} (set : o.value? key = some value) : key ≠ .extra := by
  rintro rfl
  cases set

theorem mem_known (o : CompilerOptions) (name : String) (value : Json) :
    (name, value) ∈ o.known ↔ o.value? (OptionKey.ofName name) = some value := by
  rw [known_eq, List.mem_filterMap]
  constructor
  · rintro ⟨key, -, named⟩
    obtain ⟨_, set, same⟩ := Option.map_eq_some_iff.mp named
    cases same
    rwa [OptionKey.ofName_name (ne_extra_of_value? set)]
  · intro set
    have own := ne_extra_of_value? set
    exact ⟨_, OptionKey.mem_known _ own, by rw [set, OptionKey.name_ofName own]; rfl⟩

theorem nodup_known (o : CompilerOptions) : (Fields.names o.known).Nodup := by
  rw [known_eq, Fields.names, List.map_filterMap]
  refine OptionKey.nodup_known.filterMap ?_
  intro key key' name named named'
  simp only [Option.map_map, Option.mem_def, Option.map_eq_some_iff, Function.comp_apply] at named named'
  obtain ⟨value, set, same⟩ := named
  obtain ⟨value', set', same'⟩ := named'
  rw [← OptionKey.ofName_name (ne_extra_of_value? set), ← OptionKey.ofName_name (ne_extra_of_value? set'), same, same']

theorem get?_toFields (o : CompilerOptions) (name : String) :
    o.toFields.get? name = (o.value? (OptionKey.ofName name)).or (o.extra.get? name) := by
  have own : Fields.get? o.known name = o.value? (OptionKey.ofName name) := by
    ext value
    rw [Fields.get?_eq_some o.nodup_known, mem_known]
  rw [toFields, Fields.get?_insertAll o.nodup_known, own]

/-! ## Options that were read -/

/-- The other options are kept in order, and none has the name of an option with a field of its own. -/
structure WellFormed (o : CompilerOptions) : Prop where
  increasing : o.extra.Increasing
  other : ∀ name ∈ o.extra.names, OptionKey.ofName name = .extra

theorem wellFormed_empty : empty.WellFormed := ⟨List.Pairwise.nil, by simp [empty, Fields.names]⟩

theorem WellFormed.insert (formed : o.WellFormed) {name : String} (other : OptionKey.ofName name = .extra)
    (value : Json) :
    WellFormed { o with extra := o.extra.insert name value } := by
  refine ⟨formed.increasing.insert name value, ?_⟩
  intro written mem
  rcases Fields.mem_names_insert.mp mem with rfl | mem
  · exact other
  · exact formed.other written mem

theorem WellFormed.readMember {base name : String} {value : Json} {read : CompilerOptions} (formed : o.WellFormed)
    (done : CompilerOptions.readMember base o name value = .ok read) : read.WellFormed := by
  -- Only an option without a field of its own goes to the others.
  have mapped : ∀ {α : Type} {result : Except Diagnostic α} {set : α → CompilerOptions},
      result.map set = .ok read → (∀ a, (set a).extra = o.extra) → read.WellFormed := by
    intro α result set done same
    cases result with
    | error d => cases done
    | ok a =>
      cases done
      exact ⟨same a ▸ formed.increasing, same a ▸ formed.other⟩
  rw [CompilerOptions.readMember] at done
  cases key : OptionKey.ofName name with
  | extra =>
    rw [key] at done
    cases done
    exact formed.insert key value
  | _ =>
    rw [key] at done
    exact mapped done fun _ => rfl

theorem WellFormed.readMembers {base : String} (formed : o.WellFormed) (members : List (String × Json)) :
    (CompilerOptions.readMembers base o members).1.WellFormed := by
  induction members generalizing o with
  | nil => exact formed
  | cons member rest ih =>
    rw [CompilerOptions.readMembers]
    split
    · exact ih (formed.readMember ‹_›)
    · exact ih formed

theorem wellFormed_ofFields (base : String) (raw : Fields Json) : (ofFields base raw).1.WellFormed :=
  wellFormed_empty.readMembers raw

theorem WellFormed.increasing_toFields (formed : o.WellFormed) : o.toFields.Increasing := formed.increasing.insertAll _

theorem WellFormed.get?_extra (formed : o.WellFormed) {name : String} (own : OptionKey.ofName name ≠ .extra) :
    o.extra.get? name = none :=
  Fields.get?_eq_none.mpr fun mem => own (formed.other name mem)

theorem WellFormed.merge (formed : o.WellFormed) (formed' : later.WellFormed) : (o.merge later).WellFormed := by
  refine ⟨formed.increasing.insertAll _, ?_⟩
  intro name mem
  by_contra own
  refine Fields.get?_eq_none.mp ?_ mem
  rw [CompilerOptions.merge, Fields.get?_insertAll formed'.increasing.nodup,
    formed.get?_extra own, formed'.get?_extra own]
  rfl

/-- Options on top of others override them name by name. -/
theorem WellFormed.get?_merge (formed : o.WellFormed) (formed' : later.WellFormed) (name : String) :
    (o.merge later).toFields.get? name = (later.toFields.get? name).or (o.toFields.get? name) := by
  have extra : (o.merge later).extra.get? name = (later.extra.get? name).or (o.extra.get? name) :=
    Fields.get?_insertAll formed'.increasing.nodup _ _
  rw [get?_toFields, get?_toFields, get?_toFields, value?_merge, extra]
  by_cases other : OptionKey.ofName name = .extra
  · simp [other, value?]
  · simp [formed.get?_extra other, formed'.get?_extra other]

end CompilerOptions
end ScriptLoader
