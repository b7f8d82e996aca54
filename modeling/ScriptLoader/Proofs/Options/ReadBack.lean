import ScriptLoader.Proofs.Options.Rendered
import ScriptLoader.Proofs.ShownText

/-!
Options read back. Each name has a value of its own in the options, and reading a member sets the value of its
name and no other. What is written for a value that was read is read again as this value, whatever directory
it is read from. So options that were read are the same after they were written and read once more.
-/

set_option autoImplicit false
namespace ScriptLoader

open Text.Utf8 (isValid)

namespace Spellings
variable {α : Type} {spellings : Spellings α}

theorem mem_of_value? {word : String} {value : α} (read : spellings.value? word = some value) :
    value ∈ spellings.map Prod.snd := by
  obtain ⟨entry, found, rfl⟩ := Option.map_eq_some_iff.mp read
  exact List.mem_map.mpr ⟨entry, List.mem_of_find?_eq_some found, rfl⟩

end Spellings

-- Each table is gone through once: the word for a listed value is read as this value, although some values
-- have two spellings.

theorem ModuleKind.value?_word :
    ∀ kind ∈ spellings.map Prod.snd, spellings.value? kind.word = some kind := by decide +kernel

theorem ResolutionKind.value?_word :
    ∀ kind ∈ spellings.map Prod.snd, spellings.value? kind.word = some kind := by decide +kernel

theorem ScriptTarget.value?_word :
    ∀ target ∈ spellings.map Prod.snd, spellings.value? target.word = some target := by decide +kernel

theorem OptionKey.eq_of_ofName {name other : String} (same : ofName other = ofName name) (own : ofName name ≠ .extra) :
    other = name := by
  have named : (ofName other).name = other := name_ofName (same ▸ own)
  rw [← named, same, name_ofName own]

@[simp] theorem OptionKey.ofName_path (p : PathOption) : ofName p.name = .path p := by
  have own : OptionKey.path p ≠ .extra := nofun
  exact ofName_name own

@[simp] theorem OptionKey.ofName_flag (f : Flag) : ofName f.name = .flag f := by
  have own : OptionKey.flag f ≠ .extra := nofun
  exact ofName_name own

inductive OptionValue where
  | moduleKind (kind : ModuleKind)
  | resolution (kind : ResolutionKind)
  | target (level : ScriptTarget)
  | text (value : String)
  | flag (value : Bool)
  | other (value : Json)

namespace OptionValue

def toJson : OptionValue → Json
  | .moduleKind kind => .string kind.word
  | .resolution kind => .string kind.word
  | .target level => .string level.word
  | .text value => .string (Text.Utf8.shown value)
  | .flag value => .bool value
  | .other value => value

def shown : OptionValue → OptionValue
  | .text value => .text (Text.Utf8.shown value)
  | value => value

end OptionValue

namespace CompilerOptions
variable {o read : CompilerOptions} {base name : String}

/-- What an option is set to, by its name. -/
def held? (o : CompilerOptions) (name : String) : Option OptionValue :=
  match OptionKey.ofName name with
  | .moduleKind => o.moduleKind.map .moduleKind
  | .resolution => o.resolution.map .resolution
  | .target => o.target.map .target
  | .jsx => o.jsx.map .text
  | .path p => (o.path p).map .text
  | .flag f => (o.flag f).map .flag
  | .extra => (o.extra.get? name).map .other

def readValue (base name : String) (value : Json) : Except Diagnostic OptionValue :=
  match OptionKey.ofName name with
  | .moduleKind => (readChoice name ModuleKind.spellings value).map .moduleKind
  | .resolution => (readChoice name ResolutionKind.spellings value).map .resolution
  | .target => (readChoice name ScriptTarget.spellings value).map .target
  | .jsx => (readString name value).map .text
  | .path _ => (readString name value).map fun text => .text (resolvePath base text)
  | .flag _ => (readBool name value).map .flag
  | .extra => .ok (.other value)

theorem WellFormed.get?_toFields_eq_held? (formed : o.WellFormed) (name : String) :
    o.toFields.get? name = (o.held? name).map OptionValue.toJson := by
  rw [get?_toFields]
  cases key : OptionKey.ofName name with
  | extra =>
    simp only [value?, held?, key, Option.none_or, Option.map_map]
    exact Option.map_id'.symm
  | _ =>
    rw [formed.get?_extra (by rw [key]; simp), Option.or_none]
    simp only [value?, held?, key, Option.map_map]
    rfl

/-- Options that hold the same under every name are the same. -/
theorem WellFormed.ext {other : CompilerOptions} (formed : o.WellFormed) (formed' : other.WellFormed)
    (same : ∀ name, o.held? name = other.held? name) : o = other := by
  have set : ∀ {α : Type} {wrap : α → OptionValue} {a b : Option α}, (∀ {x y}, wrap x = wrap y → x = y) →
      a.map wrap = b.map wrap → a = b := fun injective => (Option.map_injective (fun _ _ => injective)).eq_iff.mp
  have moduleKind : o.moduleKind = other.moduleKind := set OptionValue.moduleKind.inj (same "module")
  have resolution : o.resolution = other.resolution := set OptionValue.resolution.inj (same "moduleResolution")
  have target : o.target = other.target := set OptionValue.target.inj (same "target")
  have jsx : o.jsx = other.jsx := set OptionValue.text.inj (same "jsx")
  have path : o.path = other.path := by
    funext p
    have held := same p.name
    simp only [held?, OptionKey.ofName_path] at held
    exact set OptionValue.text.inj held
  have flag : o.flag = other.flag := by
    funext f
    have held := same f.name
    simp only [held?, OptionKey.ofName_flag] at held
    exact set OptionValue.flag.inj held
  have extra : o.extra = other.extra := by
    refine formed.increasing.ext formed'.increasing ?_
    intro name
    by_cases key : OptionKey.ofName name = .extra
    · have held := same name
      simp only [held?, key] at held
      exact set OptionValue.other.inj held
    · rw [formed.get?_extra key, formed'.get?_extra key]
  cases o
  cases other
  simp_all

/-! ## One member after another -/

/-- Sets the option of one name. -/
def Sets (o read : CompilerOptions) (name : String) (value : OptionValue) : Prop :=
  ∀ other, read.held? other = if other = name then some value else o.held? other

/-- Whether a member can be used does not depend on the options read so far, and one that can sets the option
of its name. -/
theorem readMember_eq (base : String) (o : CompilerOptions) (name : String) (value : Json) :
    (∃ d, readValue base name value = .error d ∧ readMember base o name value = .error d) ∨
      ∃ v read, readValue base name value = .ok v ∧ readMember base o name value = .ok read ∧ o.Sets read name v := by
  have mapped : ∀ {α : Type} {result : Except Diagnostic α} {wrap : α → OptionValue} {set : α → CompilerOptions},
      (∀ a, o.Sets (set a) name (wrap a)) →
      (∃ d, result.map wrap = .error d ∧ result.map set = .error d) ∨
        ∃ v read, result.map wrap = .ok v ∧ result.map set = .ok read ∧ o.Sets read name v := by
    intro α result wrap set sets
    cases result with
    | error d => exact .inl ⟨d, rfl, rfl⟩
    | ok a => exact .inr ⟨wrap a, set a, rfl, rfl, sets a⟩
  cases key : OptionKey.ofName name with
  | extra =>
    refine .inr ⟨.other value, { o with extra := o.extra.insert name value }, ?_, ?_, ?_⟩
    · simp only [readValue, key]
    · simp only [readMember, key]
    · intro other
      by_cases same : other = name
      · simp [held?, same, key, Fields.get?_insert]
      · rw [if_neg same, held?, held?]
        simp only [Fields.get?_insert, if_neg same]
  | _ =>
    simp only [readValue, readMember, key]
    refine mapped fun value other => ?_
    clear mapped
    by_cases same : other = name
    · simp [held?, same, key, setPath, setFlag]
    · -- A name that leads to the same field would be the same name.
      have differs : OptionKey.ofName other ≠ OptionKey.ofName name :=
        fun equal => same (OptionKey.eq_of_ofName equal (by simp [key]))
      rw [key] at differs
      rw [if_neg same, held?, held?]
      generalize OptionKey.ofName other = other_key at differs
      cases other_key <;> simp_all [setPath, setFlag]

def complaint? (base : String) (member : String × Json) : Option Diagnostic :=
  match readValue base member.1 member.2 with
  | .ok _ => none
  | .error d => some d

theorem reported_readMembers (base : String) (o : CompilerOptions) (members : List (String × Json)) :
    (readMembers base o members).2 = members.filterMap (complaint? base) := by
  induction members generalizing o with
  | nil => rfl
  | cons member rest ih =>
    obtain ⟨name, value⟩ := member
    rw [readMembers]
    rcases readMember_eq base o name value with ⟨d, refused, same⟩ | ⟨v, read, usable, same, -⟩
    · rw [same, List.filterMap_cons_some (by rw [complaint?, refused]), ← ih o]
    · rw [same, List.filterMap_cons_none (by rw [complaint?, usable]), ← ih read]

/-- What an option is set to after reading was so before, or is what a member of its name says. -/
theorem of_held?_readMembers {members : List (String × Json)} {v : OptionValue}
    (held : (readMembers base o members).1.held? name = some v) :
    o.held? name = some v ∨ ∃ value, (name, value) ∈ members ∧ readValue base name value = .ok v := by
  induction members generalizing o with
  | nil => exact .inl held
  | cons member rest ih =>
    obtain ⟨other, value⟩ := member
    have later : ∀ {so_far : CompilerOptions}, (readMembers base so_far rest).1.held? name = some v →
        so_far.held? name = some v ∨
          ∃ value', (name, value') ∈ (other, value) :: rest ∧ readValue base name value' = .ok v := by
      intro so_far held
      rcases ih held with before | ⟨value', mem, usable⟩
      · exact .inl before
      · exact .inr ⟨value', List.mem_cons_of_mem _ mem, usable⟩
    rw [readMembers] at held
    rcases readMember_eq base o other value with ⟨d, -, same⟩ | ⟨set, read, usable, same, sets⟩
    · rw [same] at held
      exact later held
    · rw [same] at held
      rcases later held with now | found
      · rw [sets] at now
        split at now
        · rename_i own
          cases now
          exact .inr ⟨value, own ▸ List.mem_cons_self, own ▸ usable⟩
        · exact .inl now
      · exact .inr found

/-- Where no name stands twice, each option is set to what the member of its name says. -/
theorem held?_readMembers {members : List (String × Json)} (nodup : (Fields.names members).Nodup) (name : String) :
    (readMembers base o members).1.held? name =
      ((Fields.get? members name).bind fun value => (readValue base name value).toOption).or (o.held? name) := by
  induction members generalizing o with
  | nil => rfl
  | cons member rest ih =>
    obtain ⟨other, value⟩ := member
    obtain ⟨absent, nodup_rest⟩ := List.nodup_cons.mp nodup
    rw [readMembers, Fields.get?_cons]
    rcases readMember_eq base o other value with ⟨d, refused, same⟩ | ⟨set, read, usable, same, sets⟩
    · rw [same]
      by_cases own : name = other
      · subst own
        rw [if_pos rfl, Option.bind_some, refused]
        refine (ih nodup_rest).trans ?_
        rw [Fields.get?_eq_none.mpr absent]
        rfl
      · rw [if_neg own]
        exact ih nodup_rest
    · rw [same]
      refine (ih nodup_rest).trans ?_
      rw [sets]
      by_cases own : name = other
      · subst own
        rw [Fields.get?_eq_none.mpr absent, if_pos rfl, if_pos rfl, Option.bind_some, usable]
        rfl
      · rw [if_neg own, if_neg own]

/-! ## What is written is read again -/

theorem readChoice_eq_ok {α : Type} {spellings : Spellings α} {value : Json} {choice : α}
    (read : readChoice name spellings value = .ok choice) : choice ∈ spellings.map Prod.snd := by
  unfold readChoice at read
  split at read
  · split at read
    · rename_i found
      cases read
      exact Spellings.mem_of_value? found
    · cases read
  · cases read

theorem readChoice_word {α : Type} {spellings : Spellings α} {word : α → String} {value : Json} {choice : α}
    (words : ∀ choice ∈ spellings.map Prod.snd, spellings.value? (word choice) = some choice)
    (read : readChoice name spellings value = .ok choice) :
    readChoice name spellings (.string (word choice)) = .ok choice := by
  rw [readChoice, words choice (readChoice_eq_ok read)]

theorem readString_eq_ok {value : Json} {text : String} (read : readString name value = .ok text) :
    value = .string text := by
  unfold readString at read
  split at read
  · cases read
    rfl
  · cases read

theorem map_eq_ok {ε α β : Type} {result : Except ε α} {f : α → β} {value : β} (mapped : result.map f = .ok value) :
    ∃ a, result = .ok a ∧ f a = value := by
  cases result with
  | error e => cases mapped
  | ok a => exact ⟨a, rfl, Except.ok.inj mapped⟩

theorem resolvePath_settled (rooted : Path.isAbs base = true) (text : String) :
    Path.isAbs (resolvePath base text) = true ∧ Path.clean (resolvePath base text) = resolvePath base text := by
  refine ⟨Path.isAbs_clean ?_, Path.clean_clean _⟩
  split
  · assumption
  · exact Path.isAbs_join rooted text

/-- A value that was read is written to what is read as this value, with its text as it is shown. -/
theorem readValue_toJson (rooted : Path.isAbs base = true) {value : Json} {v : OptionValue}
    (usable : readValue base name value = .ok v) (base' : String) : readValue base' name v.toJson = .ok v.shown := by
  cases key : OptionKey.ofName name with
  | moduleKind =>
    simp only [readValue, key] at usable ⊢
    obtain ⟨kind, read, rfl⟩ := map_eq_ok usable
    rw [OptionValue.toJson, readChoice_word ModuleKind.value?_word read]
    rfl
  | resolution =>
    simp only [readValue, key] at usable ⊢
    obtain ⟨kind, read, rfl⟩ := map_eq_ok usable
    rw [OptionValue.toJson, readChoice_word ResolutionKind.value?_word read]
    rfl
  | target =>
    simp only [readValue, key] at usable ⊢
    obtain ⟨level, read, rfl⟩ := map_eq_ok usable
    rw [OptionValue.toJson, readChoice_word ScriptTarget.value?_word read]
    rfl
  | path p =>
    simp only [readValue, key] at usable ⊢
    obtain ⟨text, -, rfl⟩ := map_eq_ok usable
    -- The path starts at the root, so the directory it is read from does not count, and it is clean already.
    obtain ⟨rooted', settled⟩ := resolvePath_settled rooted text
    obtain ⟨rooted_shown, settled_shown⟩ := Path.clean_shown rooted' settled
    have stays : resolvePath base' (Text.Utf8.shown (resolvePath base text)) =
        Text.Utf8.shown (resolvePath base text) := by
      rw [resolvePath, if_pos rooted_shown, settled_shown]
    exact congrArg (fun text => Except.ok (OptionValue.text text)) stays
  | jsx | flag =>
    simp only [readValue, key] at usable ⊢
    obtain ⟨a, -, rfl⟩ := map_eq_ok usable
    rfl
  | extra =>
    simp only [readValue, key] at usable ⊢
    cases usable
    rfl

theorem isValid_resolvePath {text : String} (valid_base : isValid base = true) (valid : isValid text = true) :
    isValid (resolvePath base text) = true := by
  apply Path.isValid_clean
  split
  · exact valid
  · apply Path.isValid_join
    intro part mem
    rcases List.mem_cons.mp mem with rfl | mem
    · exact valid_base
    · exact List.mem_singleton.mp mem ▸ valid

/-- Without strays in the member and in the directory there are none in the value. -/
theorem shown_of_readValue {value : Json} {v : OptionValue} (usable : readValue base name value = .ok v)
    (valid_base : isValid base = true) (valid : ∀ text, value = .string text → isValid text = true) : v.shown = v := by
  cases key : OptionKey.ofName name with
  | jsx =>
    simp only [readValue, key] at usable
    obtain ⟨text, read, rfl⟩ := map_eq_ok usable
    rw [OptionValue.shown, Text.Utf8.shown_of_isValid (valid text (readString_eq_ok read))]
  | path p =>
    simp only [readValue, key] at usable
    obtain ⟨text, read, rfl⟩ := map_eq_ok usable
    rw [OptionValue.shown,
      Text.Utf8.shown_of_isValid (isValid_resolvePath valid_base (valid text (readString_eq_ok read)))]
  | extra =>
    simp only [readValue, key] at usable
    cases usable
    rfl
  | _ =>
    simp only [readValue, key] at usable
    obtain ⟨a, -, rfl⟩ := map_eq_ok usable
    rfl

def shown (o : CompilerOptions) : CompilerOptions :=
  { o with path := fun p => (o.path p).map Text.Utf8.shown, jsx := o.jsx.map Text.Utf8.shown }

theorem WellFormed.shown (formed : o.WellFormed) : o.shown.WellFormed := ⟨formed.increasing, formed.other⟩

theorem held?_shown (o : CompilerOptions) (name : String) :
    o.shown.held? name = (o.held? name).map OptionValue.shown := by
  cases key : OptionKey.ofName name <;> simp [held?, key, shown, OptionValue.shown, Function.comp_def]

/-- Options that hold only values that can be read are written to members that give them back, as they are shown. -/
theorem WellFormed.ofFields_toFields (formed : o.WellFormed)
    (readable : ∀ {name v}, o.held? name = some v → readValue base name v.toJson = .ok v.shown) :
    ofFields base o.toFields = (o.shown, []) := by
  have nodup := formed.increasing_toFields.nodup
  refine Prod.ext ?_ ?_
  · refine (wellFormed_ofFields base o.toFields).ext formed.shown ?_
    intro name
    rw [ofFields, held?_readMembers nodup, formed.get?_toFields_eq_held?, held?_shown]
    cases held : o.held? name with
    | none =>
      cases key : OptionKey.ofName name <;> simp [held?, key, empty, Fields.get?]
    | some v =>
      rw [Option.map_some, Option.bind_some, readable held]
      rfl
  · rw [ofFields, reported_readMembers, List.filterMap_eq_nil_iff]
    rintro ⟨name, value⟩ mem
    have found := (Fields.get?_eq_some nodup).mpr mem
    rw [formed.get?_toFields_eq_held?] at found
    obtain ⟨v, held, rfl⟩ := Option.map_eq_some_iff.mp found
    rw [complaint?, readable held]

theorem readValue_of_ofFields {raw : Fields Json} {v : OptionValue} (held : (ofFields base raw).1.held? name = some v) :
    ∃ value, (name, value) ∈ raw ∧ readValue base name value = .ok v := by
  rcases of_held?_readMembers held with nothing | found
  · cases key : OptionKey.ofName name <;> simp [held?, key, empty, Fields.get?] at nothing
  · exact found

/-- Options that were read, seen from a directory that starts at the root, are written to members that give
them back from whatever directory they are read, and nothing is reported. Strays are written as they are
shown; where the texts that were read and the directory have none, the options are the same. -/
theorem ofFields_toFields_gives_back {base : String} (rooted : Path.isAbs base = true)
    (raw : Fields Json) (base' : String) :
    let o := (ofFields base raw).1
    ofFields base' o.toFields = (o.shown, []) ∧
      (isValid base = true → (∀ name text, (name, .string text) ∈ raw → isValid text = true) →
        ofFields base' o.toFields = (o, [])) := by
  intro o
  have formed : o.WellFormed := wellFormed_ofFields base raw
  have back : ofFields base' o.toFields = (o.shown, []) := by
    refine formed.ofFields_toFields ?_
    intro name v held
    obtain ⟨value, -, usable⟩ := readValue_of_ofFields held
    exact readValue_toJson rooted usable base'
  refine ⟨back, fun valid_base valid => ?_⟩
  have same : o.shown = o := by
    refine formed.shown.ext formed ?_
    intro name
    rw [held?_shown]
    cases held : o.held? name with
    | none => rfl
    | some v =>
      obtain ⟨value, mem, usable⟩ := readValue_of_ofFields held
      have unchanged := shown_of_readValue usable valid_base fun text same => valid name text (same ▸ mem)
      exact congrArg some unchanged
  rw [back, same]

/-- Members with a second spelling, a path that goes up, an option without a field and one that cannot be used. -/
def spelledMembers : Fields Json :=
  [("lib", .array [.string "dom", .null]), ("module", .string "es6"), ("outDir", .string "../dist/./"),
    ("strict", .string "yes")]

theorem read_spelledMembers :
    let o := (ofFields "/p/q" spelledMembers).1
    o.moduleKind = some .es2015 ∧ o.path .outDir = some "/p/dist" ∧ (ofFields "/p/q" spelledMembers).2.length = 1 := by
  decide +kernel

/-- They are read back from another directory without the member that could not be used, and nothing is
reported any more. -/
theorem ofFields_toFields_spelledMembers :
    let o := (ofFields "/p/q" spelledMembers).1
    o.moduleKind = some .es2015 ∧ o.path .outDir = some "/p/dist" ∧ (ofFields "/p/q" spelledMembers).2.length = 1 ∧
      ofFields "/elsewhere" o.toFields = (o, []) := by
  obtain ⟨kind, path, reported⟩ := read_spelledMembers
  refine ⟨kind, path, reported, (ofFields_toFields_gives_back rfl spelledMembers "/elsewhere").2 rfl ?_⟩
  intro name text mem
  simp only [spelledMembers, List.mem_cons, Prod.mk.injEq, reduceCtorEq, and_false, Json.string.injEq, false_or,
    List.not_mem_nil, or_false] at mem
  rcases mem with ⟨-, rfl⟩ | ⟨-, rfl⟩ | ⟨-, rfl⟩ <;> rfl

end CompilerOptions
end ScriptLoader
