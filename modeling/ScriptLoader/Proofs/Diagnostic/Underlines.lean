import ScriptLoader.Diagnostic.Format
import ScriptLoader.Proofs.Text.CellWidths
import Mathlib.Data.List.DropRight

/-!
The line under an excerpt. The padding takes the cells of the characters before the column, one by one, and
there are as many tildes as the underlined text has bytes. So the line stands where it should if no cluster
before the column joins characters that take cells, and it is as long as it should be if the underlined text
is of single bytes that take one cell each.
-/

set_option autoImplicit false
namespace ScriptLoader.Diagnostic
open Text.Utf8

/-- A text with blanks in the place of each run between tabs, as many as the run measures. -/
def blanked (measure : List Char → Nat) (s : List Char) : List Char :=
  ['\t'].intercalate ((Text.split '\t' s).map fun run => List.replicate (measure run) ' ')

theorem some_run (s : List Char) : Text.split '\t' s ≠ [] := Text.split_ne_nil s

theorem blanked_eq_iff {measure other : List Char → Nat} {s : List Char} :
    blanked measure s = blanked other s ↔ ∀ run ∈ Text.split '\t' s, measure run = other run := by
  have apart : ∀ measure : List Char → Nat,
      Text.split '\t' (blanked measure s) = (Text.split '\t' s).map fun run => List.replicate (measure run) ' ' := by
    intro measure
    refine Text.split_intercalate (by simp [some_run]) fun piece mem => ?_
    obtain ⟨run, -, rfl⟩ := List.mem_map.mp mem
    simp [List.mem_replicate]
  constructor
  · intro same run mem
    have runs := congrArg (Text.split '\t') same
    rw [apart, apart] at runs
    simpa using congrArg List.length (List.map_inj_left.mp runs run mem)
  · intro same
    rw [blanked, blanked, List.map_congr_left fun run mem => by rw [same run mem]]

theorem blanked_tab (measure : List Char → Nat) (s : List Char) :
    blanked measure ('\t' :: s) = List.replicate (measure []) ' ' ++ '\t' :: blanked measure s := by
  obtain ⟨run, runs, whole⟩ := List.exists_cons_of_ne_nil (some_run s)
  rw [blanked, blanked, Text.split, if_pos rfl, whole]
  simp [List.intercalate_cons_cons]

theorem blanked_spread_cons {c : Char} (no_tab : c ≠ '\t') (s : List Char) :
    blanked Text.spread (c :: s) = List.replicate (Text.charWidth c) ' ' ++ blanked Text.spread s := by
  obtain ⟨run, runs, whole⟩ := List.exists_cons_of_ne_nil (some_run s)
  rw [blanked, blanked, Text.split, if_neg no_tab, whole]
  dsimp only
  rw [List.map_cons, List.map_cons, Text.spread_cons, List.replicate_add]
  cases runs with
  | nil => simp only [List.map_nil, List.intercalate_singleton]
  | cons next more => simp only [List.map_cons, List.intercalate_cons_cons, List.append_assoc]

/-- The padding takes the cells of each character by itself. -/
theorem toList_padding (s : List Char) : (padding s).toList = blanked Text.spread s := by
  induction s with
  | nil => rfl
  | cons c rest ih =>
    have first : (padding (c :: rest)).toList =
        (if c = '\t' then "\t" else Text.fill ' ' (Text.charWidth c)).toList ++ (padding rest).toList := by
      simp [padding]
    rw [first, ih]
    split
    next tab =>
      rw [tab, blanked_tab]
      rfl
    next no_tab => rw [blanked_spread_cons no_tab, Text.fill, String.toList_ofList]

theorem underlineWidth_inside {text : List UInt8} {column size : Nat} {length : Int}
    (inside : column + size ≤ text.length)
    (bytes : max length 0 = size) : underlineWidth text column length = max 1 size := by
  have wanted : (max length 1).toNat = max 1 size := by omega
  unfold underlineWidth
  dsimp only
  rw [wanted, if_neg (by omega)]

/-- The line under an excerpt: below the number of the line and the blank after it, then below the text. -/
def underlining (options : FormatOptions) (d : Diagnostic) (pad : List Char) (tildes : Nat) : String :=
  Text.fill ' ' ((toString d.line).length + 1) ++ String.ofList pad ++
    (categoryStyle d.category).paint options.color (Text.fill '~' tildes)

def shownText (d : Diagnostic) : List Char := Text.trimEnd (fun c => c = '\r' || c = '\n') d.lineText.toList

theorem readable_shownText {d : Diagnostic} (readable : Readable d.lineText) :
    Readable (String.ofList (shownText d)) := by
  obtain ⟨ending, whole⟩ := List.rdropWhile_prefix (fun c => c = '\r' || c = '\n') d.lineText.toList
  apply Readable.of_append (t := String.ofList ending)
  have together : String.ofList (shownText d) ++ String.ofList ending = d.lineText := by
    rw [← String.ofList_append, ← String.ofList_toList (s := d.lineText)]
    exact congrArg String.ofList whole
  rwa [together]

/-- The column and the length of a diagnostic count bytes: those of `before` come first, those of `under` are
underlined. -/
structure Marks (d : Diagnostic) (before under after : List Char) : Prop where
  text : shownText d = before ++ under ++ after
  column : max d.column 1 = size (String.ofList before) + 1
  length : max d.length 0 = size (String.ofList under)

theorem excerpt_of_marks {d : Diagnostic} {before under after : List Char} (readable : Readable d.lineText)
    (marks : Marks d before under after) (options : FormatOptions) :
    excerpt options d = "\n" ++ Text.Style.grey.paint options.color (toString d.line) ++ " " ++
      String.ofList (shownText d) ++
      "\n" ++ underlining options d (blanked Text.spread before) (max 1 (size (String.ofList under))) ++ "\n" := by
  have shown : Readable (String.ofList before ++ String.ofList (under ++ after)) := by
    rw [← String.ofList_append, ← List.append_assoc, ← marks.text]
    exact readable_shownText readable
  have column : (max d.column 1 - 1).toNat = size (String.ofList before) := by
    have := marks.column
    omega
  have bytes : encode (String.ofList (shownText d)) =
      encode (String.ofList before) ++ (encode (String.ofList under) ++ encode (String.ofList after)) := by
    rw [marks.text, String.ofList_append, String.ofList_append, encode_append, encode_append, List.append_assoc]
  have cut : decodeChars ((encode (String.ofList (shownText d))).take (size (String.ofList before))) = before := by
    rw [bytes, size, List.take_left]
    simpa [Readable, decode] using congrArg String.toList shown.of_append
  have width : underlineWidth (encode (String.ofList (shownText d))) (size (String.ofList before)) d.length =
      max 1 (size (String.ofList under)) := by
    refine underlineWidth_inside ?_ marks.length
    rw [bytes, size, size]
    simp only [List.length_append]
    omega
  have padded : padding before = String.ofList (blanked Text.spread before) := by
    rw [← toList_padding, String.ofList_toList]
  rw [shownText] at cut width
  unfold excerpt underlining shownText
  dsimp only
  rw [column, cut, width, padded]
  simp only [String.append_assoc]

theorem format_of_mem (options : FormatOptions) {diagnostics : List Diagnostic} {d : Diagnostic}
    (mem : d ∈ diagnostics) :
    ∃ front rest, format options diagnostics = front ++ formatOne options d ++ rest := by
  induction diagnostics with
  | nil => simp at mem
  | cons first others ih =>
    by_cases alone : others = []
    · obtain rfl : d = first := by simpa [alone] using mem
      exact ⟨"", "", by simp [format, alone]⟩
    · have whole : format options (first :: others) =
          formatOne options first ++ (if options.pretty then "\n" else "") ++ format options others := by
        rw [format, List.map_cons, String.intercalate_cons_of_ne_nil (by simpa using alone), ← format]
      rcases List.mem_cons.mp mem with rfl | later
      · exact ⟨"", _, by rw [whole, String.append_assoc, String.empty_append]⟩
      · obtain ⟨front, rest, same⟩ := ih later
        refine ⟨formatOne options first ++ (if options.pretty then "\n" else "") ++ front, rest, ?_⟩
        rw [whole, same]
        simp only [String.append_assoc]

/-- The numbers of tildes for the bytes and for the cells of a text agree. -/
theorem tildes_eq_iff (under : List Char) :
    max 1 (size (String.ofList under)) = max 1 (Text.width under) ↔
      (∀ c ∈ under, Text.isSingle c = true) ∨ size (String.ofList under) ≤ 1 := by
  have cells := Text.width_le_size under
  rw [← Text.width_eq_size_iff]
  omega

/-- The line under an excerpt in pretty form. It is padded right just if no cluster before the column has two
characters that take cells, and has the right number of tildes just if the underlined text takes one cell for
each byte, or is at most one byte. -/
theorem format_underlines_by_bytes {options : FormatOptions} {diagnostics : List Diagnostic} {d : Diagnostic}
    {before under after : List Char} (pretty : options.pretty = true) (mem : d ∈ diagnostics) (numbered : 0 < d.line)
    (some_text : d.lineText ≠ "") (readable : Readable d.lineText) (marks : Marks d before under after) :
    (∃ front rest, format options diagnostics =
      front ++ header options d ++
        "\n" ++ Text.Style.grey.paint options.color (toString d.line) ++ " " ++
        String.ofList (before ++ under ++ after) ++
        "\n" ++ underlining options d (blanked Text.spread before) (max 1 (size (String.ofList under))) ++
        "\n" ++ rest) ∧
    (blanked Text.spread before = blanked Text.width before ↔ ∀ run ∈ Text.split '\t' before, Text.Unjoined run) ∧
    (max 1 (size (String.ofList under)) = max 1 (Text.width under) ↔
      (∀ c ∈ under, Text.isSingle c = true) ∨ size (String.ofList under) ≤ 1) := by
  refine ⟨?_, ?_, tildes_eq_iff under⟩
  · obtain ⟨front, rest, whole⟩ := format_of_mem options mem
    refine ⟨front, rest, ?_⟩
    rw [whole, formatOne, if_pos ⟨pretty, some_text, numbered⟩, excerpt_of_marks readable marks, marks.text]
    simp only [String.append_assoc]
  · rw [blanked_eq_iff]
    exact forall₂_congr fun run _ => eq_comm.trans Text.width_eq_spread_iff

/-- A line that begins with a tab and a wide character, with a word of three bytes underlined. -/
def indentedWord : Diagnostic := ⟨.error, .none, "m", "/w/a.ts", 12, 6, 3, "\t字 foo = 1\r\n"⟩

theorem format_underlines_indented_word :
    (∃ front rest, format { pretty := true } [indentedWord] =
      front ++ header { pretty := true } indentedWord ++
        "\n" ++ "12" ++ " " ++ "\t字 foo = 1" ++ "\n" ++ "   \t   ~~~" ++ "\n" ++ rest) ∧
    blanked Text.spread "\t字 ".toList = blanked Text.width "\t字 ".toList ∧
    max 1 (size (String.ofList "foo".toList)) = max 1 (Text.width "foo".toList) := by
  have marks : Marks indentedWord "\t字 ".toList "foo".toList " = 1".toList :=
    ⟨by decide +kernel, by decide +kernel, by decide +kernel⟩
  obtain ⟨⟨front, rest, whole⟩, padded, tildes⟩ :=
    @format_underlines_by_bytes { pretty := true } [indentedWord] indentedWord _ _ _
      rfl (List.mem_singleton_self _) (by decide) (by decide) (readable_of_isValid (by decide)) marks
  refine ⟨⟨front, rest, ?_⟩, padded.mpr ?_, tildes.mpr (.inl (List.all_eq_true.mp (by decide)))⟩
  · have number : Text.Style.grey.paint false (toString indentedWord.line) = "12" := by decide
    have line : underlining { pretty := true } indentedWord (blanked Text.spread "\t字 ".toList)
        (max 1 (size (String.ofList "foo".toList))) = "   \t   ~~~" := by decide +kernel
    rw [whole, number, line]
    rfl
  · have runs : Text.split '\t' "\t字 ".toList = [[], ['字', ' ']] := by decide
    have wide : Text.Grapheme.classify '字' = .other := by
      simp only [Text.Grapheme.classify, Text.covers_toList]
      decide +kernel
    have blank : Text.Grapheme.classify ' ' = .other := Text.classify_of_isSingle (by decide)
    rw [runs, List.forall_mem_cons, List.forall_mem_singleton]
    exact ⟨Text.unjoined_of_other (List.forall_mem_nil _),
      Text.unjoined_of_other (List.forall_mem_cons.mpr ⟨wide, List.forall_mem_singleton.mpr blank⟩)⟩

/-- A line with a letter of two bytes underlined. -/
def accentedName : Diagnostic := ⟨.error, .none, "m", "/w/a.ts", 1, 7, 2, "const é = 1"⟩

theorem format_underlines_one_letter_twice :
    Marks accentedName "const ".toList "é".toList " = 1".toList ∧ Readable accentedName.lineText ∧
      format { cwd := "/w", pretty := true } [accentedName] = "a.ts:1:7 - error: m\n\n1 const é = 1\n        ~~\n" ∧
      max 1 (Text.width "é".toList) = 1 := by
  have marks : Marks accentedName "const ".toList "é".toList " = 1".toList :=
    ⟨by decide +kernel, by decide +kernel, by decide +kernel⟩
  have readable : Readable accentedName.lineText := readable_of_isValid (by decide)
  refine ⟨marks, readable, ?_, ?_⟩
  · rw [format, List.map_singleton, String.intercalate_singleton, formatOne, if_pos (by decide),
      excerpt_of_marks readable marks]
    decide +kernel
  · have cells := Text.width_le_spread "é".toList
    have one : Text.spread "é".toList = 1 := by decide +kernel
    omega

end ScriptLoader.Diagnostic
