import ScriptLoader.Proofs.Fields
import ScriptLoader.Proofs.Json.Records

/-!
Values in their texts. Every value reads back from its text, on one line or on many, with each text in it as
it is shown and each number with its value. The members of an object stand there in order of their written
names, quotes and escapes included, which is not always the order of the names.
-/

set_option autoImplicit false
namespace ScriptLoader.Json
open Text.Utf8

/-- The elements of an array and the values of an object come before the whole. -/
theorem induction {motive : Json → Prop} (null : motive .null) (bool : ∀ value, motive (.bool value))
    (number : ∀ value, motive (.number value)) (string : ∀ value, motive (.string value))
    (array : ∀ items, (∀ item ∈ items, motive item) → motive (.array items))
    (object : ∀ members, (∀ member ∈ members, motive member.2) → motive (.object members)) (value : Json) :
    motive value :=
  @Json.rec motive (fun items => ∀ item ∈ items, motive item) (fun members => ∀ member ∈ members, motive member.2)
    (fun member => motive member.2) null bool number string array object
    (fun _ mem => absurd mem List.not_mem_nil) (fun _ _ first others => List.forall_mem_cons.mpr ⟨first, others⟩)
    (fun _ mem => absurd mem List.not_mem_nil) (fun _ _ first others => List.forall_mem_cons.mpr ⟨first, others⟩)
    (fun _ _ held => held) value

/-! ## What a reader finds -/

section
variable {α β : Type}

def inTextOrder (members : List (String × α)) : List (String × α) :=
  members.mergeSort fun a b => decide (quote a.1 ≤ quote b.1)

theorem perm_inTextOrder (members : List (String × α)) : (inTextOrder members).Perm members := List.mergeSort_perm _ _

theorem mem_inTextOrder {members : List (String × α)} {member : String × α} :
    member ∈ inTextOrder members ↔ member ∈ members :=
  (perm_inTextOrder members).mem_iff

theorem map_inTextOrder (f : α → β) (members : List (String × α)) :
    (inTextOrder members).map (fun member => (member.1, f member.2)) =
      inTextOrder (members.map fun member => (member.1, f member.2)) :=
  List.map_mergeSort fun _ _ _ _ => rfl

end

mutual

def asRead : Json → Json
  | .number value => .number value.asRead
  | .string value => .string (shown value)
  | .array items => .array (itemsAsRead items)
  | .object members => .object ((inTextOrder (membersAsRead members)).map fun (name, value) => (shown name, value))
  | value => value

def itemsAsRead : List Json → List Json
  | [] => []
  | item :: rest => asRead item :: itemsAsRead rest

def membersAsRead : List (String × Json) → List (String × Json)
  | [] => []
  | (name, value) :: rest => (name, asRead value) :: membersAsRead rest

end

theorem asRead_array (items : List Json) : asRead (.array items) = .array (items.map asRead) := by
  rw [asRead]
  congr 1
  induction items with
  | nil => rfl
  | cons item rest ih => rw [itemsAsRead, ih, List.map_cons]

theorem asRead_object (members : List (String × Json)) :
    asRead (.object members) = .object ((inTextOrder members).map (memberAsRead asRead)) := by
  have each : membersAsRead members = members.map fun member => (member.1, asRead member.2) := by
    induction members with
    | nil => rfl
    | cons member rest ih => rw [membersAsRead, ih, List.map_cons]
  rw [asRead, each, ← map_inTextOrder, List.map_map]
  rfl

/-! ## Values without parts -/

/-- A text that stands for one value wherever it stands. -/
theorem readsAs_word {text : List Char} {c : Char} {more : List Char} {read : Json} (starts : text = c :: more)
    (begins : isBlank c = false ∧ c ≠ ']')
    (reads : ∀ fuel rest, EndsNumber rest → value? .plain (fuel + 1) (text ++ rest) = some (read, rest)) :
    ReadsAs text read := by
  refine ⟨⟨c, more, starts, begins⟩, ?_⟩
  intro fuel enough rest ends
  rw [starts, List.length_cons] at enough
  obtain ⟨fuel, rfl⟩ : ∃ k, fuel = k + 1 := ⟨fuel - 1, by omega⟩
  exact reads fuel rest ends

theorem readsAs_null : ReadsAs (render .null).toList .null := by
  have chars : (render .null).toList = ['n', 'u', 'l', 'l'] := by simp [render]
  exact readsAs_word chars ⟨rfl, by decide⟩ fun _ _ _ => by simp [chars, value?, Text.after?]

theorem readsAs_bool (value : Bool) : ReadsAs (render (.bool value)).toList (.bool value) := by
  cases value with
  | true =>
    have chars : (render (.bool true)).toList = ['t', 'r', 'u', 'e'] := by simp [render]
    exact readsAs_word chars ⟨rfl, by decide⟩ fun _ _ _ => by simp [chars, value?, Text.after?]
  | false =>
    have chars : (render (.bool false)).toList = ['f', 'a', 'l', 's', 'e'] := by simp [render]
    exact readsAs_word chars ⟨rfl, by decide⟩ fun _ _ _ => by simp [chars, value?, Text.after?]

theorem readsAs_string (value : String) : ReadsAs (render (.string value)).toList (.string (shown value)) := by
  refine readsAs_word (by rw [render, toList_quote]) ⟨rfl, by decide⟩ ?_
  intro fuel rest _
  rw [render, toList_quote, List.cons_append, List.append_assoc, value?]
  simp [string?_written]

theorem readsAs_number (value : Decimal) : ReadsAs (render (.number value)).toList (.number value.asRead) := by
  obtain ⟨c, more, starts, begins⟩ := starts_render value
  have other : c ∉ ['"', '[', '{', 't', 'f', 'n', ']', ' ', '\t', '\r', '\n'] := by
    intro mem
    simp only [List.mem_cons, List.not_mem_nil, or_false] at mem
    rcases mem with rfl | rfl | rfl | rfl | rfl | rfl | rfl | rfl | rfl | rfl | rfl <;> revert begins <;> decide
  simp only [List.mem_cons, List.not_mem_nil, or_false, not_or] at other
  refine readsAs_word starts (by simp [isBlank, other]) ?_
  intro fuel rest ends
  have read := number?_render value ends
  rw [render]
  rw [starts, List.cons_append] at read ⊢
  rw [value?.eq_def]
  simp [Text.after?, read, other, Ne.symm other.2.2.2.1, Ne.symm other.2.2.2.2.1, Ne.symm other.2.2.2.2.2.1]

/-! ## Values on one line -/

theorem renderItems_eq_map (items : List Json) : renderItems items = items.map render := by
  induction items with
  | nil => rfl
  | cons item rest ih => rw [renderItems, ih, List.map_cons]

theorem renderMembers_eq_map (members : List (String × Json)) :
    renderMembers members = members.map fun member => (quote member.1, render member.2) := by
  induction members with
  | nil => rfl
  | cons member rest ih => rw [renderMembers, ih, List.map_cons]

theorem toList_commaList (items : List String) : (commaList items).toList = listed .none (items.map String.toList) := by
  rw [commaList, String.toList_intercalate]
  rfl

theorem toList_render_array (items : List Json) :
    (render (.array items)).toList = arrayText .compact (items.map fun item => (render item).toList) := by
  simp [render, renderItems_eq_map, toList_commaList, arrayText, Spacing.compact, Blanks.none, Function.comp_def]

theorem toList_record (members : List (String × Json)) :
    (record members).toList =
    objectText .compact (members.map (memberText .compact fun value => (render value).toList)) := by
  have texts : members.map (memberText .compact fun value => (render value).toList) =
      (members.map fun member => quote member.1 ++ ":" ++ render member.2).map String.toList := by
    simp [memberText, Spacing.compact, Blanks.none]
  rw [texts]
  simp [record, toList_commaList, objectText, Spacing.compact, Blanks.none]

theorem render_object (members : List (String × Json)) : render (.object members) = record (inTextOrder members) := by
  have sorted : (inTextOrder members).map (fun member => (quote member.1, render member.2)) =
      sortMembers (members.map fun member => (quote member.1, render member.2)) :=
    List.map_mergeSort fun _ _ _ _ => rfl
  rw [render, renderMembers_eq_map, ← sorted, List.map_map]
  rfl

theorem readsAs_record {members : List (String × Json)} {read : Json → Json}
    (each : ∀ member ∈ members, ReadsAs (render member.2).toList (read member.2)) :
    ReadsAs (record members).toList (.object (members.map (memberAsRead read))) := by
  rw [toList_record]
  by_cases empty : members = []
  · subst empty
    exact readsAs_empty_object
  · exact readsAs_object .compact empty each

theorem readsAs_render (value : Json) : ReadsAs (render value).toList value.asRead := by
  induction value using induction with
  | null => exact readsAs_null
  | bool value => exact readsAs_bool value
  | number value => exact readsAs_number value
  | string value => exact readsAs_string value
  | array items ih =>
    rw [toList_render_array, asRead_array]
    by_cases empty : items = []
    · subst empty
      exact readsAs_empty_array
    · exact readsAs_array .compact empty ih
  | object members ih =>
    rw [render_object, asRead_object]
    exact readsAs_record fun member mem => ih member (mem_inTextOrder.mp mem)

theorem parse?_record (members : List (String × Json)) :
    parse? .plain (record members ++ "\n") = some (.object (members.map (memberAsRead asRead))) :=
  parse?_of_readsAs (readsAs_record fun member _ => readsAs_render member.2)
    ⟨['\n'], List.forall_mem_singleton.mpr rfl⟩ (by simp)

/-! ## Values on many lines -/

theorem prettyItems_eq_map (outer : String) (items : List Json) :
    prettyItems outer items = items.map (pretty outer) := by
  induction items with
  | nil => rfl
  | cons item rest ih => rw [prettyItems, ih, List.map_cons]

theorem prettyMembers_eq_map (outer : String) (members : List (String × Json)) :
    prettyMembers outer members = members.map fun member => (quote member.1, pretty outer member.2) := by
  induction members with
  | nil => rfl
  | cons member rest ih => rw [prettyMembers, ih, List.map_cons]

/-- What stands before each item may stand after each comma instead. -/
theorem intercalate_map_append (separator inner : List Char) {texts : List (List Char)} (some_text : texts ≠ []) :
    separator.intercalate (texts.map (inner ++ ·)) = inner ++ (separator ++ inner).intercalate texts := by
  induction texts with
  | nil => exact absurd rfl some_text
  | cons text others ih =>
    by_cases alone : others = []
    · simp [alone]
    · rw [List.map_cons, List.intercalate_cons_of_ne_nil (by simpa using alone),
        List.intercalate_cons_of_ne_nil alone, ih alone]
      simp

section
variable {outer : String} (blank : ∀ c ∈ outer.toList, isBlank c = true)
include blank

theorem blank_inner : ∀ c ∈ (outer ++ "  ").toList, isBlank c = true := by
  simpa [or_imp, forall_and] using ⟨blank, rfl⟩

omit blank in
theorem blank_line {indent : String} (blank : ∀ c ∈ indent.toList, isBlank c = true) :
    ∀ c ∈ '\n' :: indent.toList, isBlank c = true :=
  List.forall_mem_cons.mpr ⟨rfl, blank⟩

def Spacing.lines : Spacing where
  first := ⟨_, blank_line (blank_inner blank)⟩
  next := ⟨_, blank_line (blank_inner blank)⟩
  last := ⟨_, blank_line blank⟩
  colon := ⟨[' '], List.forall_mem_singleton.mpr rfl⟩

theorem toList_block (opening closing : String) {items : List String} (some_item : items ≠ []) :
    (block opening closing outer (outer ++ "  ") items).toList =
      opening.toList ++
      ((Spacing.lines blank).first.val ++ (listed (Spacing.lines blank).next (items.map String.toList) ++
        ((Spacing.lines blank).last.val ++ closing.toList))) := by
  have some_text : items.map String.toList ≠ [] := by simpa using some_item
  have shifted := intercalate_map_append [',', '\n'] (outer ++ "  ").toList some_text
  rw [List.map_map] at shifted
  simp only [block, List.isEmpty_eq_false_iff.mpr some_item]
  simp [String.toList_intercalate, Function.comp_def, Spacing.lines, listed] at shifted ⊢
  simp [shifted]

theorem readsAs_block_array {items : List Json}
    (each : ∀ item ∈ items, ReadsAs (pretty (outer ++ "  ") item).toList item.asRead) :
    ReadsAs (block "[" "]" outer (outer ++ "  ") (items.map (pretty (outer ++ "  ")))).toList
      (.array (items.map asRead)) := by
  by_cases empty : items = []
  · subst empty
    simpa [block] using readsAs_empty_array
  · rw [toList_block blank "[" "]" (by simpa using empty), List.map_map]
    exact readsAs_array (Spacing.lines blank) empty each

theorem readsAs_block_object {members : List (String × Json)}
    (each : ∀ member ∈ members, ReadsAs (pretty (outer ++ "  ") member.2).toList member.2.asRead) :
    ReadsAs (block "\x7b" "\x7d" outer (outer ++ "  ")
      (members.map fun member => quote member.1 ++ ": " ++ pretty (outer ++ "  ") member.2)).toList
      (.object (members.map (memberAsRead asRead))) := by
  by_cases empty : members = []
  · subst empty
    simpa [block] using readsAs_empty_object
  · have texts : members.map (memberText (Spacing.lines blank) fun value => (pretty (outer ++ "  ") value).toList) =
        (members.map fun member => quote member.1 ++ ": " ++ pretty (outer ++ "  ") member.2).map String.toList := by
      simp [memberText, Spacing.lines]
    rw [toList_block blank "\x7b" "\x7d" (by simpa using empty), ← texts]
    exact readsAs_object (Spacing.lines blank) empty each

end

theorem readsAs_pretty (value : Json) : ∀ {outer : String}, (∀ c ∈ outer.toList, isBlank c = true) →
    ReadsAs (pretty outer value).toList value.asRead := by
  induction value using induction with
  | null => exact fun _ => readsAs_null
  | bool value =>
    intro outer blank
    have same : pretty outer (.bool value) = render (.bool value) := by cases value <;> rfl
    exact same ▸ readsAs_bool value
  | number value => exact fun _ => readsAs_number value
  | string value => exact fun _ => readsAs_string value
  | array items ih =>
    intro outer blank
    rw [pretty, prettyItems_eq_map, asRead_array]
    exact readsAs_block_array blank fun item mem => ih item mem (blank_inner blank)
  | object members ih =>
    intro outer blank
    have sorted : (inTextOrder members).map (fun member => (quote member.1, pretty (outer ++ "  ") member.2)) =
        sortMembers (members.map fun member => (quote member.1, pretty (outer ++ "  ") member.2)) :=
      List.map_mergeSort fun _ _ _ _ => rfl
    rw [pretty, prettyMembers_eq_map, ← sorted, List.map_map, asRead_object]
    exact readsAs_block_object blank fun member mem => ih member (mem_inTextOrder.mp mem) (blank_inner blank)

theorem parse?_prettyRecord (members : List (String × Json)) :
    parse? .plain (prettyRecord members ++ "\n") = some (.object (members.map (memberAsRead asRead))) := by
  have no_indent : ∀ c ∈ "".toList, isBlank c = true := by simp
  have reads : ReadsAs (prettyRecord members).toList _ :=
    readsAs_block_object no_indent fun member (_ : member ∈ members) => readsAs_pretty member.2 (blank_inner no_indent)
  exact parse?_of_readsAs reads ⟨['\n'], List.forall_mem_singleton.mpr rfl⟩ (by simp)

/-! ## Values that are told apart -/

/-- Well-formed names are told apart as they are written. -/
theorem quote_inj {s t : String} (valid : isValid s = true) (valid' : isValid t = true) (same : quote s = quote t) :
    s = t := by
  have bodies : s.toList.flatMap escapeChar ++ ['"'] = t.toList.flatMap escapeChar ++ ['"'] := by
    have chars := congrArg String.toList same
    rw [toList_quote, toList_quote] at chars
    exact List.tail_eq_of_cons_eq chars
  -- A reader finds one name in both, as it is shown.
  have read := string?_written s []
  rw [bodies, string?_written t []] at read
  rw [← shown_of_isValid valid, ← shown_of_isValid valid']
  exact (Prod.mk.inj (Option.some.inj read)).1.symm

theorem pairwise_inTextOrder {members : Fields Json} (nodup : members.names.Nodup)
    (valid : ∀ member ∈ members, isValid member.1 = true) :
    (inTextOrder members).Pairwise fun a b => quote a.1 < quote b.1 := by
  have sorted : (inTextOrder members).Pairwise fun a b => quote a.1 ≤ quote b.1 := by
    refine (List.pairwise_mergeSort ?_ ?_ members).imp of_decide_eq_true
    · intro a b c before after
      exact decide_eq_true (String.le_trans (of_decide_eq_true before) (of_decide_eq_true after))
    · intro a b
      simpa using String.le_total (quote a.1) (quote b.1)
  have distinct : (inTextOrder members).Pairwise fun a b => a.1 ≠ b.1 :=
    List.pairwise_map.mp (((perm_inTextOrder members).map Prod.fst).nodup_iff.mpr nodup)
  -- Sorting leaves open that two names are written the same, which well-formed ones are not.
  refine (sorted.and distinct).imp_of_mem ?_
  rintro a b mem mem' ⟨before, differs⟩
  refine Std.lt_of_le_of_ne before fun same => differs ?_
  exact quote_inj (valid a (mem_inTextOrder.mp mem)) (valid b (mem_inTextOrder.mp mem')) same

/-- Values without numbers, with well-formed texts and with objects that are maps. -/
inductive Textual : Json → Prop
  | null : Textual .null
  | bool (value : Bool) : Textual (.bool value)
  | string {value : String} (valid : isValid value = true) : Textual (.string value)
  | array {items : List Json} (each : ∀ item ∈ items, Textual item) : Textual (.array items)
  | object {members : Fields Json} (increasing : members.Increasing)
      (valid : ∀ member ∈ members, isValid member.1 = true)
      (each : ∀ member ∈ members, Textual member.2) : Textual (.object members)

/-- Objects whose members stand in order of their written names, at every level. -/
inductive Ordered : Json → Prop
  | null : Ordered .null
  | bool (value : Bool) : Ordered (.bool value)
  | number (value : Decimal) : Ordered (.number value)
  | string (value : String) : Ordered (.string value)
  | array {items : List Json} (each : ∀ item ∈ items, Ordered item) : Ordered (.array items)
  | object {members : List (String × Json)} (increasing : members.Pairwise fun a b => quote a.1 < quote b.1)
      (each : ∀ member ∈ members, Ordered member.2) : Ordered (.object members)

theorem normalItems?_map {read : Json → Json} {items : List Json}
    (each : ∀ item ∈ items, normal? (read item) = some item) :
    normalItems? (items.map read) = some items := by
  induction items with
  | nil => rfl
  | cons item rest ih =>
    obtain ⟨first, each⟩ := List.forall_mem_cons.mp each
    rw [List.map_cons, normalItems?, first, ih each]
    rfl

theorem normalMembers?_map {read : Json → Json} {members : List (String × Json)}
    (each : ∀ member ∈ members, normal? (read member.2) = some member.2) :
    normalMembers? (members.map fun member => (member.1, read member.2)) = some members := by
  induction members with
  | nil => rfl
  | cons member rest ih =>
    obtain ⟨first, each⟩ := List.forall_mem_cons.mp each
    rw [List.map_cons, normalMembers?, first, ih each]
    rfl

namespace Textual
variable {value : Json}

/-- Only names with strays are shown otherwise than they are. -/
theorem asRead_members {members : Fields Json} (valid : ∀ member ∈ members, isValid member.1 = true) :
    asRead (.object members) = .object ((inTextOrder members).map fun member => (member.1, asRead member.2)) := by
  rw [asRead_object]
  congr 1
  apply List.map_congr_left
  intro member mem
  rw [memberAsRead, shown_of_isValid (valid member (mem_inTextOrder.mp mem))]

theorem normal?_asRead (textual : value.Textual) : value.asRead.normal? = some value := by
  induction textual with
  | null => rfl
  | bool value => rfl
  | string valid => rw [asRead, shown_of_isValid valid, normal?]
  | array _ ih => rw [asRead_array, normal?, normalItems?_map ih, Option.map_some]
  | @object members increasing valid _ ih =>
    have each : ∀ member ∈ inTextOrder members, normal? (asRead member.2) = some member.2 :=
      fun member mem => ih member (mem_inTextOrder.mp mem)
    rw [asRead_members valid, normal?, normalMembers?_map each, Option.map_some,
      Fields.ofList_of_perm increasing (perm_inTextOrder members)]

theorem ordered_asRead (textual : value.Textual) : value.asRead.Ordered := by
  induction textual with
  | null => exact .null
  | bool value => exact .bool value
  | string valid => exact .string _
  | array _ ih =>
    rw [asRead_array]
    refine .array ?_
    intro _ mem
    obtain ⟨item, held, rfl⟩ := List.mem_map.mp mem
    exact ih item held
  | @object members increasing valid _ ih =>
    rw [asRead_members valid]
    refine .object (List.pairwise_map.mpr (pairwise_inTextOrder increasing.nodup valid)) ?_
    intro _ mem
    obtain ⟨member, held, rfl⟩ := List.mem_map.mp mem
    exact ih member (mem_inTextOrder.mp held)

/-- A value without numbers is found again in its text, with the members of every object in order of their
written names. -/
theorem parse?_render (textual : value.Textual) :
    parse? .plain value.render = some value.asRead ∧ value.asRead.Ordered ∧ value.asRead.normal? = some value :=
  ⟨parse?_of_readsAs (readsAs_render value) .none (by simp [Blanks.none]),
    textual.ordered_asRead, textual.normal?_asRead⟩

end Textual

end ScriptLoader.Json
