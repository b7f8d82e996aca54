import ScriptLoader.Options.TransformText
import ScriptLoader.Proofs.ByteTexts
import ScriptLoader.Proofs.Json.WrittenValues
import ScriptLoader.Proofs.Options.Rendered

/-!
The text of the options that the transformer of a single file reads. It reads back as these options and
nothing else, so that options which differ only elsewhere have the same text.
-/

set_option autoImplicit false
namespace ScriptLoader
open Text.Utf8

/-! ## The words of options are well-formed -/

namespace Text.Utf8

theorem isValid_shown (s : String) : isValid (shown s) = true := by
  rw [isValid_iff, toList_shown]
  intro _ mem
  obtain ⟨c, -, rfl⟩ := List.mem_map.mp mem
  unfold shownChar
  split
  · decide
  next plain => exact Bool.eq_false_iff.mpr plain

theorem isStray_toLower {c : Char} (plain : isStray c = false) : isStray c.toLower = false := by
  unfold Char.toLower
  split
  next upper =>
    -- Between two capital letters and their small ones lie 32 characters.
    have capital : c.val.toNat ≤ 90 := UInt32.le_iff_toNat_le.mp upper.2
    have small : (c.val + 32).toNat ≤ c.val.toNat + 32 := by
      rw [UInt32.toNat_add]
      exact Nat.mod_le _ _
    exact isStray_of_small (Nat.lt_of_le_of_lt small (by omega))
  · exact plain

theorem isValid_lowerAscii {s : String} (valid : isValid s = true) : isValid (lowerAscii s) = true := by
  rw [isValid_iff] at valid ⊢
  rw [lowerAscii, String.toList_ofList]
  intro _ mem
  obtain ⟨c, held, rfl⟩ := List.mem_map.mp mem
  exact isStray_toLower (valid c held)

theorem isValid_toString_int (n : Int) : isValid (toString n) = true := by
  cases n with
  | ofNat n => exact isValid_toString n
  | negSucc n =>
    have written : toString (Int.negSucc n) = "-" ++ toString (n + 1) := rfl
    rw [isValid_iff, written, String.toList_append]
    intro c mem
    rcases List.mem_append.mp mem with sign | digit
    · obtain rfl := List.mem_singleton.mp sign
      decide
    · exact isValid_iff.mp (isValid_toString (n + 1)) c digit

end Text.Utf8

/-- A value without a spelling is written as its number. -/
theorem Spellings.isValid_word {α : Type} [DecidableEq α] {spellings : Spellings α}
    (plain : (spellings.all fun entry => isValid entry.1) = true) (value : α) (number : Int) :
    isValid (Text.lowerAscii ((spellings.name? value).getD (toString number))) = true := by
  apply isValid_lowerAscii
  cases named : spellings.name? value with
  | none => exact isValid_toString_int number
  | some name =>
    obtain ⟨entry, found, rfl⟩ := Option.map_eq_some_iff.mp named
    exact List.all_eq_true.mp plain entry (List.mem_of_find?_eq_some found)

namespace CompilerOptions
variable {o : CompilerOptions}

theorem textual_value? {key : OptionKey} {value : Json} (set : o.value? key = some value) : value.Textual := by
  cases key with
  | extra => cases set
  | flag f =>
    obtain ⟨on, -, rfl⟩ := Option.map_eq_some_iff.mp set
    exact .bool on
  | path p =>
    obtain ⟨path, -, rfl⟩ := Option.map_eq_some_iff.mp set
    exact .string (isValid_shown path)
  | jsx =>
    obtain ⟨mode, -, rfl⟩ := Option.map_eq_some_iff.mp set
    exact .string (isValid_shown mode)
  | moduleKind =>
    obtain ⟨kind, -, rfl⟩ := Option.map_eq_some_iff.mp set
    exact .string (Spellings.isValid_word (by decide) kind kind.value)
  | resolution =>
    obtain ⟨kind, -, rfl⟩ := Option.map_eq_some_iff.mp set
    exact .string (Spellings.isValid_word (by decide) kind kind.value)
  | target =>
    obtain ⟨target, -, rfl⟩ := Option.map_eq_some_iff.mp set
    exact .string (Spellings.isValid_word (by decide) target target.value)

/-! ## The options of the transformer -/

theorem increasing_transformFields (increasing : o.extra.Increasing) : o.transformFields.Increasing :=
  (increasing.insertAll o.known).filter _

theorem get?_transformFields (o : CompilerOptions) (name : String) :
    o.transformFields.get? name = if name ∈ transformNames then o.toFields.get? name else none := by
  rw [transformFields, Fields.get?_filter]
  simp

theorem textual_transformFields (increasing : o.extra.Increasing)
    (textual : ∀ field ∈ o.extra, field.1 ∈ transformNames → field.2.Textual) :
    (Json.object o.transformFields).Textual := by
  have plain : (transformNames.all fun name => isValid name) = true := by decide
  have named : ∀ field ∈ o.transformFields, field.1 ∈ transformNames := fun field mem => by
    simpa using (List.mem_filter.mp mem).2
  refine .object (increasing_transformFields increasing)
    (fun field mem => List.all_eq_true.mp plain _ (named field mem)) ?_
  intro field mem
  have found := (Fields.get?_eq_some (increasing_transformFields increasing).nodup).mpr mem
  rw [get?_transformFields, if_pos (named field mem), get?_toFields, Option.or_eq_some_iff] at found
  rcases found with own | ⟨-, other⟩
  · exact textual_value? own
  · exact textual field ((Fields.get?_eq_some increasing.nodup).mp other) (named field mem)

theorem transformFields_congr {other : CompilerOptions} (increasing : o.extra.Increasing)
    (increasing' : other.extra.Increasing)
    (agree : ∀ name ∈ transformNames, other.toFields.get? name = o.toFields.get? name) :
    other.transformFields = o.transformFields := by
  refine (increasing_transformFields increasing').ext (increasing_transformFields increasing) ?_
  intro name
  rw [get?_transformFields, get?_transformFields]
  by_cases read : name ∈ transformNames
  · rw [if_pos read, if_pos read, agree name read]
  · rw [if_neg read, if_neg read]

/-- The text has the options under one name. -/
theorem parse?_transformText (o : CompilerOptions) :
    Json.parse? .plain o.transformText =
      some (.object [("compilerOptions", (Json.object o.transformFields).asRead)]) := by
  have name : Text.Utf8.shown "compilerOptions" = "compilerOptions" := by decide
  have read :=
    Json.parse?_of_readsAs (Json.readsAs_render (.object [("compilerOptions", .object o.transformFields)])) .none
    (List.append_nil _).symm
  rw [Json.asRead_object, Json.inTextOrder, List.mergeSort_singleton, List.map_singleton,
    Json.memberAsRead, name] at read
  exact read

/-- The text of options without numbers has one member, which reads back as the options that the transformer
reads, with the members of every object in order of their written names. Options that agree on these names
have the same text. -/
theorem transformText_reads_back (o : CompilerOptions) (increasing : o.extra.Increasing)
    (textual : ∀ field ∈ o.extra, field.1 ∈ transformNames → field.2.Textual) :
    (∃ (read : Json) (fields : Fields Json), Json.parse? .plain o.transformText =
    some (.object [("compilerOptions", read)]) ∧
      read.Ordered ∧ read.normal? = some (.object fields) ∧ fields.Increasing ∧
      ∀ name, fields.get? name = if name ∈ transformNames then o.toFields.get? name else none) ∧
    ∀ other : CompilerOptions, other.extra.Increasing →
      (∀ name ∈ transformNames, other.toFields.get? name = o.toFields.get? name) →
      other.transformText = o.transformText := by
  have inner := textual_transformFields increasing textual
  constructor
  · obtain ⟨-, ordered, settled⟩ := inner.parse?_render
    exact ⟨_, _, parse?_transformText o, ordered, settled, increasing_transformFields increasing,
      o.get?_transformFields⟩
  · intro other increasing' agree
    rw [transformText, transformText, transformFields_congr increasing increasing' agree]

/-- Two paths, of which one is the other with a blank after it. -/
def spacedPaths : CompilerOptions := { extra := [("paths", .object [("a", .strings ["x"]), ("a ", .strings ["y"])])] }

theorem textual_spacedPaths : ∀ field ∈ spacedPaths.extra, field.2.Textual := by
  have strings : ∀ item : String, isValid item = true → (Json.strings [item]).Textual := fun item valid =>
    .array (List.forall_mem_singleton.mpr (.string valid))
  have valid : isValid "a" = true ∧ isValid "a " = true ∧ isValid "x" = true ∧ isValid "y" = true := by decide
  have increasing : ["a", "a "].Pairwise (· < ·) := by decide +kernel
  refine List.forall_mem_singleton.mpr (.object increasing ?_ ?_)
  · exact List.forall_mem_cons.mpr ⟨valid.1, List.forall_mem_singleton.mpr valid.2.1⟩
  · exact List.forall_mem_cons.mpr ⟨strings "x" valid.2.2.1, List.forall_mem_singleton.mpr (strings "y" valid.2.2.2)⟩

/-- The paths read back, and the way in which specifiers are resolved does not show. -/
theorem transformText_spacedPaths_reads_back :
    spacedPaths.extra.Increasing ∧ (∀ field ∈ spacedPaths.extra, field.1 ∈ transformNames → field.2.Textual) ∧
    (∃ (read : Json) (fields : Fields Json), Json.parse? .plain spacedPaths.transformText =
    some (.object [("compilerOptions", read)]) ∧
      read.normal? = some (.object fields) ∧
      fields.get? "paths" = some (.object [("a", .strings ["x"]), ("a ", .strings ["y"])])) ∧
    transformText { spacedPaths with resolution := some .bundler } = spacedPaths.transformText := by
  have increasing : spacedPaths.extra.Increasing := List.pairwise_singleton _ _
  have textual : ∀ field ∈ spacedPaths.extra, field.1 ∈ transformNames → field.2.Textual :=
    fun field mem _ => textual_spacedPaths field mem
  have unread : (transformNames.all fun name => decide (OptionKey.ofName name ≠ .resolution)) = true := by decide
  have same : ∀ key, key ≠ .resolution → value? { spacedPaths with resolution := some .bundler } key =
      spacedPaths.value? key := by
    intro key other
    cases key with
    | resolution => exact absurd rfl other
    | _ => rfl
  obtain ⟨⟨read, fields, found, -, settled, -, held⟩, alike⟩ := transformText_reads_back spacedPaths increasing textual
  refine ⟨increasing, textual, ⟨read, fields, found, settled, held "paths"⟩, alike _ increasing ?_⟩
  intro name mem
  rw [get?_toFields, get?_toFields, same _ (of_decide_eq_true (List.all_eq_true.mp unread name mem))]

/-- A blank comes before the quote that ends the shorter name, so that the greater name stands first. -/
theorem transformText_not_by_name : "a" < "a " ∧ Json.parse? .plain spacedPaths.transformText =
    some (.object [("compilerOptions", .object [("paths", .object [("a ", .strings ["y"]),
    ("a", .strings ["x"])])])]) := by
  refine ⟨by decide +kernel, ?_⟩
  have fields : spacedPaths.transformFields = spacedPaths.extra := rfl
  have plain : Text.Utf8.shown "paths" = "paths" ∧ Text.Utf8.shown "a" = "a" ∧ Text.Utf8.shown "a " = "a " ∧
      Text.Utf8.shown "x" = "x" ∧ Text.Utf8.shown "y" = "y" := by decide
  have text : ∀ s, (Json.string s).asRead = .string (Text.Utf8.shown s) := fun _ => rfl
  have single : ∀ member : String × Json, Json.inTextOrder [member] = [member] :=
    fun member => List.mergeSort_singleton member
  have order : ∀ x y : Json, Json.inTextOrder [("a", x), ("a ", y)] = [("a ", y), ("a", x)] := by
    have greater : ¬ Json.quote "a" ≤ Json.quote "a " := by decide +kernel
    intro x y
    simp [Json.inTextOrder, List.mergeSort, List.MergeSort.Internal.splitInTwo, greater]
  rw [parse?_transformText, fields]
  simp [spacedPaths, Json.asRead_object, Json.memberAsRead, Json.strings, Json.asRead_array, text, single, order, plain]

end CompilerOptions
end ScriptLoader
