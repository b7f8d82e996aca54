import ScriptLoader.Proofs.Options.ReadBack

/-!
Members that are accounted for. A member of a `compilerOptions` object sets the field of its name, or it is
refused with one diagnostic, or it is kept as it is under a name that has no field. No option is set
otherwise, and nothing else is reported.
-/

set_option autoImplicit false
namespace ScriptLoader

/-- What a value says as the value of an option with a field of its own: a word of the option's table, a text,
a path seen from `base` or a truth value. -/
inductive Decodes (base : String) : OptionKey → Json → OptionValue → Prop where
  | moduleKind {word : String} {kind : ModuleKind} : ModuleKind.spellings.value? word = some kind →
      Decodes base .moduleKind (.string word) (.moduleKind kind)
  | resolution {word : String} {kind : ResolutionKind} : ResolutionKind.spellings.value? word = some kind →
      Decodes base .resolution (.string word) (.resolution kind)
  | target {word : String} {level : ScriptTarget} : ScriptTarget.spellings.value? word = some level →
      Decodes base .target (.string word) (.target level)
  | jsx (text : String) : Decodes base .jsx (.string text) (.text text)
  | path (p : PathOption) (text : String) :
      Decodes base (.path p) (.string text) (.text (CompilerOptions.resolvePath base text))
  | flag (f : Flag) (value : Bool) : Decodes base (.flag f) (.bool value) (.flag value)

/-- An error about the value of the option that its message names. -/
structure Complains (name : String) (d : Diagnostic) : Prop where
  is_error : d.category = .error
  code : d.code = .invalidOptionValue
  named : ∃ rest, d.message = "Argument for '--" ++ name ++ "' option must be: " ++ rest ∨
    d.message = "Compiler option '" ++ name ++ "' requires a value of type " ++ rest

namespace CompilerOptions
variable {base name : String} {value : Json} {v : OptionValue} {d : Diagnostic}

def refusal (name : String) : Diagnostic :=
  match OptionKey.ofName name with
  | .moduleKind => badChoice name ModuleKind.spellings
  | .resolution => badChoice name ResolutionKind.spellings
  | .target => badChoice name ScriptTarget.spellings
  | .jsx | .path _ => badType name "string"
  | .flag _ | .extra => badType name "boolean"

theorem complains_badChoice {α : Type} (name : String) (spellings : Spellings α) :
    Complains name (badChoice name spellings) := by
  refine ⟨rfl, rfl, spellings.choices ++ ".", .inl ?_⟩
  simp only [badChoice, Diagnostic.ofError, String.append_assoc]

theorem complains_badType (name type : String) : Complains name (badType name type) := by
  refine ⟨rfl, rfl, type ++ ".", .inr ?_⟩
  simp only [badType, Diagnostic.ofError, String.append_assoc]

theorem complains_refusal (name : String) : Complains name (refusal name) := by
  unfold refusal
  split
  · exact complains_badChoice name _
  · exact complains_badChoice name _
  · exact complains_badChoice name _
  · exact complains_badType name _
  · exact complains_badType name _
  · exact complains_badType name _
  · exact complains_badType name _

/-- Options with fields of their own are refused in different words. -/
theorem eq_of_refusal {other : String} (own : OptionKey.ofName name ≠ .extra) (own' : OptionKey.ofName other ≠ .extra)
    (same : refusal name = refusal other) : name = other := by
  -- The messages of all options with a field are compared once; from there on only the keys count.
  have apart : (OptionKey.known.map fun key => (refusal key.name).message).Nodup := by decide +kernel
  have keys : OptionKey.ofName other = OptionKey.ofName name := by
    refine List.inj_on_of_nodup_map apart (OptionKey.mem_known _ own') (OptionKey.mem_known _ own) ?_
    rw [OptionKey.name_ofName own, OptionKey.name_ofName own', same]
  exact (OptionKey.eq_of_ofName keys own).symm

/-! ## One member -/

theorem readChoice_eq {α : Type} {name : String} (spellings : Spellings α) (value : Json) :
    (∃ word choice, value = .string word ∧ spellings.value? word = some choice ∧
    readChoice name spellings value = .ok choice) ∨
      (∀ word choice, value = .string word → spellings.value? word ≠ some choice) ∧
        readChoice name spellings value = .error (badChoice name spellings) := by
  cases value with
  | string word =>
    cases found : spellings.value? word with
    | some choice => exact .inl ⟨word, choice, rfl, found, by simp only [readChoice, found]⟩
    | none =>
      refine .inr ⟨?_, by simp only [readChoice, found]⟩
      rintro _ choice ⟨⟩
      simp [found]
  | null | bool | number | array | object =>
    refine .inr ⟨?_, rfl⟩
    intro _ _ same
    cases same

/-- A member with a field of its own is read as what its value says, and refused when that is nothing. -/
theorem readValue_eq (own : OptionKey.ofName name ≠ .extra) (base : String) (value : Json) :
    (∃ v, Decodes base (OptionKey.ofName name) value v ∧ readValue base name value = .ok v) ∨
      (∀ v, ¬ Decodes base (OptionKey.ofName name) value v) ∧ readValue base name value = .error (refusal name) := by
  cases key : OptionKey.ofName name with
  | extra => exact absurd key own
  | moduleKind =>
    simp only [readValue, refusal, key]
    rcases readChoice_eq ModuleKind.spellings value with ⟨word, kind, rfl, found, read⟩ | ⟨nothing, read⟩
    · exact .inl ⟨_, .moduleKind found, by rw [read]; rfl⟩
    · refine .inr ⟨?_, by rw [read]; rfl⟩
      intro v decodes
      cases decodes with
      | moduleKind found => exact nothing _ _ rfl found
  | resolution =>
    simp only [readValue, refusal, key]
    rcases readChoice_eq ResolutionKind.spellings value with ⟨word, kind, rfl, found, read⟩ | ⟨nothing, read⟩
    · exact .inl ⟨_, .resolution found, by rw [read]; rfl⟩
    · refine .inr ⟨?_, by rw [read]; rfl⟩
      intro v decodes
      cases decodes with
      | resolution found => exact nothing _ _ rfl found
  | target =>
    simp only [readValue, refusal, key]
    rcases readChoice_eq ScriptTarget.spellings value with ⟨word, level, rfl, found, read⟩ | ⟨nothing, read⟩
    · exact .inl ⟨_, .target found, by rw [read]; rfl⟩
    · refine .inr ⟨?_, by rw [read]; rfl⟩
      intro v decodes
      cases decodes with
      | target found => exact nothing _ _ rfl found
  | jsx =>
    simp only [readValue, refusal, key]
    cases value with
    | string text => exact .inl ⟨_, .jsx text, rfl⟩
    | null | bool | number | array | object =>
      refine .inr ⟨?_, rfl⟩
      intro _ decodes
      cases decodes
  | path p =>
    simp only [readValue, refusal, key]
    cases value with
    | string text => exact .inl ⟨_, .path p text, rfl⟩
    | null | bool | number | array | object =>
      refine .inr ⟨?_, rfl⟩
      intro _ decodes
      cases decodes
  | flag f =>
    simp only [readValue, refusal, key]
    cases value with
    | bool set => exact .inl ⟨_, .flag f set, rfl⟩
    | null | string | number | array | object =>
      refine .inr ⟨?_, rfl⟩
      intro _ decodes
      cases decodes

theorem readValue_extra (other : OptionKey.ofName name = .extra) (base : String) (value : Json) :
    readValue base name value = .ok (.other value) := by
  simp only [readValue, other]

def refusedNames (base : String) (members : List (String × Json)) : List String :=
  Fields.names (members.filter fun member => (complaint? base member).isSome)

theorem eq_refusal_of_complaint? {member : String × Json} (reported : complaint? base member = some d) :
    OptionKey.ofName member.1 ≠ .extra ∧ d = refusal member.1 := by
  unfold complaint? at reported
  by_cases other : OptionKey.ofName member.1 = .extra
  · rw [readValue_extra other] at reported
    cases reported
  · rcases readValue_eq other base member.2 with ⟨v, -, read⟩ | ⟨-, read⟩
    · rw [read] at reported
      cases reported
    · rw [read] at reported
      exact ⟨other, (Option.some.inj reported).symm⟩

theorem reported_ofFields (base : String) (raw : Fields Json) :
    (ofFields base raw).2 = (refusedNames base raw).map refusal := by
  rw [ofFields, reported_readMembers, refusedNames, Fields.names, List.map_map]
  induction raw with
  | nil => rfl
  | cons member rest ih =>
    cases reported : complaint? base member with
    | none => rw [List.filterMap_cons_none reported, List.filter_cons_of_neg (by simp [reported]), ih]
    | some d =>
      rw [List.filterMap_cons_some reported, List.filter_cons_of_pos (by simp [reported]), List.map_cons, ih,
        (eq_refusal_of_complaint? reported).2]
      rfl

theorem mem_refusedNames {raw : Fields Json} :
    name ∈ refusedNames base raw ↔ ∃ value, (name, value) ∈ raw ∧ ∃ d, readValue base name value = .error d := by
  simp only [refusedNames, Fields.names, List.mem_map, List.mem_filter, complaint?]
  constructor
  · rintro ⟨⟨written, value⟩, ⟨mem, reported⟩, rfl⟩
    cases read : readValue base written value with
    | ok v => simp [read] at reported
    | error d => exact ⟨value, mem, d, read⟩
  · rintro ⟨value, mem, d, read⟩
    exact ⟨(name, value), ⟨mem, by simp [read]⟩, rfl⟩

theorem not_mem_refusedNames {raw : Fields Json} (nodup : raw.names.Nodup) (mem : (name, value) ∈ raw)
    (read : readValue base name value = .ok v) : name ∉ refusedNames base raw := by
  intro refused
  obtain ⟨value', mem', d, read'⟩ := mem_refusedNames.mp refused
  have same := (Fields.get?_eq_some nodup).mpr mem
  rw [(Fields.get?_eq_some nodup).mpr mem'] at same
  cases same
  rw [read] at read'
  cases read'

theorem ne_extra_of_refused {raw : Fields Json} (refused : name ∈ refusedNames base raw) :
    OptionKey.ofName name ≠ .extra := by
  obtain ⟨value, -, d, read⟩ := mem_refusedNames.mp refused
  intro other
  rw [readValue_extra other] at read
  cases read

theorem nodup_refusals {raw : Fields Json} (increasing : raw.Increasing) :
    ((refusedNames base raw).map refusal).Nodup := by
  refine List.Nodup.map_on ?_ (increasing.filter _).nodup
  intro first mem second mem'
  exact eq_of_refusal (ne_extra_of_refused mem) (ne_extra_of_refused mem')

theorem held?_ofFields {raw : Fields Json} (nodup : raw.names.Nodup) (name : String) :
    (ofFields base raw).1.held? name = (raw.get? name).bind fun value => (readValue base name value).toOption := by
  have unset : empty.held? name = none := by
    cases key : OptionKey.ofName name <;> simp [held?, key, empty, Fields.get?]
  rw [ofFields, held?_readMembers nodup, unset, Option.or_none]

/-! ## All members -/

/-- Each member of a map has exactly one of three effects. It sets the field of its name to what its value
says; or, when the value says nothing, it is reported once and its field stays unset; or its name has no field
and its value is kept under it. Apart from the members no option is set, and what is reported of them stands
in the order of their names. -/
theorem ofFields_accounts_for_members (base : String) {raw : Fields Json} (increasing : raw.Increasing) :
    let o := (ofFields base raw).1
    let reported := (ofFields base raw).2
    ∃ refused : List String, reported = refused.map refusal ∧ refused.Pairwise (· < ·) ∧
      (∀ name value, (name, value) ∈ raw →
        (∃ v, Decodes base (OptionKey.ofName name) value v ∧ o.held? name = some v ∧ o.extra.get? name = none ∧
          name ∉ refused) ∨
        (OptionKey.ofName name ≠ .extra ∧ (∀ v, ¬ Decodes base (OptionKey.ofName name) value v) ∧
          o.held? name = none ∧ o.extra.get? name = none ∧ name ∈ refused ∧ reported.count (refusal name) = 1 ∧
          Complains name (refusal name)) ∨
        (OptionKey.ofName name = .extra ∧ o.extra.get? name = some value ∧ name ∉ refused)) ∧
      ∀ name ∉ raw.names, o.held? name = none ∧ o.extra.get? name = none ∧ name ∉ refused := by
  intro o reported
  have formed : o.WellFormed := wellFormed_ofFields base raw
  have told : reported = (refusedNames base raw).map refusal := reported_ofFields base raw
  have in_order : (refusedNames base raw).Pairwise (· < ·) := increasing.filter _
  have held : ∀ name, o.held? name = _ := held?_ofFields increasing.nodup
  refine ⟨refusedNames base raw, told, in_order, ?_, ?_⟩
  · intro name value mem
    have found : raw.get? name = some value := (Fields.get?_eq_some increasing.nodup).mpr mem
    by_cases other : OptionKey.ofName name = .extra
    · have read := readValue_extra other base value
      have now := held name
      rw [found, Option.bind_some, read] at now
      refine .inr (.inr ⟨other, ?_, not_mem_refusedNames increasing.nodup mem read⟩)
      simp only [held?, other] at now
      obtain ⟨_, extra, same⟩ := Option.map_eq_some_iff.mp now
      cases same
      exact extra
    · rcases readValue_eq other base value with ⟨v, decodes, read⟩ | ⟨nothing, read⟩
      · refine .inl ⟨v, decodes, ?_, formed.get?_extra other, not_mem_refusedNames increasing.nodup mem read⟩
        rw [held, found, Option.bind_some, read]
        rfl
      · have refused : name ∈ refusedNames base raw := mem_refusedNames.mpr ⟨value, mem, _, read⟩
        refine .inr (.inl ⟨other, nothing, ?_, formed.get?_extra other, refused, ?_, complains_refusal name⟩)
        · rw [held, found, Option.bind_some, read]
          rfl
        · refine List.count_eq_one_of_mem ?_ ?_
          · rw [told]
            exact nodup_refusals increasing
          · rw [told]
            exact List.mem_map_of_mem refused
  · intro name absent
    have nothing : raw.get? name = none := Fields.get?_eq_none.mpr absent
    have unset : o.held? name = none := by rw [held, nothing]; rfl
    refine ⟨unset, ?_, ?_⟩
    · by_cases other : OptionKey.ofName name = .extra
      · simp only [held?, other] at unset
        exact Option.map_eq_none_iff.mp unset
      · exact formed.get?_extra other
    · intro refused
      obtain ⟨value, mem, -⟩ := mem_refusedNames.mp refused
      exact absent (List.mem_map.mpr ⟨_, mem, rfl⟩)

/-- One member that is decoded, one that is refused and one that is kept. -/
def threeMembers : Fields Json :=
  [("lib", .array [.string "dom"]), ("module", .string "ES6"), ("noEmit", .string "yes")]

theorem ofFields_threeMembers :
    threeMembers.Increasing ∧ ∃ refused : List String, (ofFields "/b" threeMembers).2 = refused.map refusal ∧
      (ofFields "/b" threeMembers).1.held? "module" = some (.moduleKind .es2015) ∧ "module" ∉ refused ∧
      (ofFields "/b" threeMembers).1.held? "noEmit" = none ∧ "noEmit" ∈ refused ∧
      (ofFields "/b" threeMembers).1.extra.get? "lib" = some (.array [.string "dom"]) ∧ "lib" ∉ refused := by
  have increasing : threeMembers.Increasing := by
    unfold Fields.Increasing
    decide +kernel
  obtain ⟨refused, reported, -, each, -⟩ := ofFields_accounts_for_members "/b" increasing
  have keys : OptionKey.ofName "module" = .moduleKind ∧ OptionKey.ofName "noEmit" = .flag .noEmit ∧
      OptionKey.ofName "lib" = .extra := by decide +kernel
  have spelled : ModuleKind.spellings.value? "ES6" = some .es2015 := by decide +kernel
  have decoded := each "module" (.string "ES6") (by simp [threeMembers])
  have left_out := each "noEmit" (.string "yes") (by simp [threeMembers])
  have kept := each "lib" (.array [.string "dom"]) (by simp [threeMembers])
  rw [keys.1] at decoded
  rw [keys.2.1] at left_out
  rw [keys.2.2] at kept
  refine ⟨increasing, refused, reported, ?_⟩
  rcases decoded with ⟨v, decodes, set, -, not_refused⟩ | ⟨-, nothing, -⟩ | ⟨same, -⟩
  · cases decodes with
    | moduleKind found =>
      rw [spelled] at found
      cases found
      rcases left_out with ⟨v, decodes, -⟩ | ⟨-, -, unset, -, is_refused, -⟩ | ⟨same, -⟩
      · cases decodes
      · rcases kept with ⟨v, decodes, -⟩ | ⟨own, -⟩ | ⟨-, extra, lib_not_refused⟩
        · cases decodes
        · exact absurd rfl own
        · exact ⟨set, not_refused, unset, is_refused, extra, lib_not_refused⟩
      · cases same
  · exact absurd (.moduleKind spelled) (nothing _)
  · cases same

end CompilerOptions
end ScriptLoader
