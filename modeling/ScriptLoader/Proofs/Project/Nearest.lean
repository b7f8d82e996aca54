import ScriptLoader.Project.Find
import ScriptLoader.Proofs.LinkFreePaths
import ScriptLoader.Proofs.Project.Parsed

/-!
The configuration that a search from a file upwards ends with. Of the directories above the file only those count whose
configuration can be used and lists the file, and of these the nearest wins. What the others hold, or fail to hold, is
without effect.
-/

set_option autoImplicit false
namespace ScriptLoader

/-! ## The first of a list that goes down -/

theorem Path.pairwise_tails {α : Type} (items : List α) :
    (tails items).Pairwise fun longer shorter => shorter.length < longer.length := by
  induction items with
  | nil => simp [tails]
  | cons item rest ih =>
    refine List.pairwise_cons.mpr ⟨fun other mem => ?_, ih⟩
    rw [tails_eq, List.mem_tails] at mem
    have short := mem.length_le
    simp only [List.length_cons]
    omega

/-- Along a list whose items get smaller the first result is that of the largest item that has one. -/
theorem Path.findSome?_eq_some_of_pairwise {α β : Type} {items : List α} {size : α → Nat}
    (ordered : items.Pairwise fun larger smaller => size smaller < size larger) {result? : α → Option β} {result : β} :
    items.findSome? result? = some result ↔
      ∃ item ∈ items, result? item = some result ∧ ∀ larger ∈ items, size item < size larger →
      result? larger = none := by
  rw [List.findSome?_eq_some_iff]
  constructor
  · rintro ⟨before, item, after, rfl, found, nothing⟩
    refine ⟨item, by simp, found, fun larger mem bigger => ?_⟩
    obtain ⟨-, below, -⟩ := List.pairwise_append.mp ordered
    rcases List.mem_append.mp mem with earlier | later
    · exact nothing larger earlier
    · rcases List.mem_cons.mp later with rfl | later
      · exact absurd bigger (Nat.lt_irrefl _)
      · exact absurd bigger (Nat.lt_asymm ((List.pairwise_cons.mp below).1 larger later))
  · rintro ⟨item, mem, found, nothing⟩
    obtain ⟨before, after, rfl⟩ := List.append_of_mem mem
    obtain ⟨-, -, across⟩ := List.pairwise_append.mp ordered
    exact ⟨before, item, after, rfl, found, fun larger earlier =>
      nothing larger (List.mem_append_left _ earlier) (across larger earlier item List.mem_cons_self)⟩

namespace Project

/-! ## The directories above a file -/

/-- The names of the directories above a path with the given names, the nearest first and without the root. -/
def levels (names : List String) : List (List String) :=
  ((Path.tails names.reverse.tail).filter (· ≠ [])).map List.reverse

theorem mem_levels {names level : List String} :
    level ∈ levels names ↔ level <+: names ∧ level ≠ names ∧ level ≠ [] := by
  have shorter : level.reverse <:+ names.reverse.tail ↔ level <+: names ∧ (level ≠ names ∨ names = []) := by
    rcases List.eq_nil_or_concat' names with rfl | ⟨above, last, rfl⟩
    · simp
    · rw [List.reverse_append, List.reverse_singleton, List.singleton_append, List.tail_cons, List.reverse_suffix]
      constructor
      · intro part
        refine ⟨part.trans (List.prefix_append _ _), .inl ?_⟩
        rintro rfl
        have long := part.length_le
        simp only [List.length_append, List.length_singleton] at long
        omega
      · rintro ⟨part, differs | none_left⟩
        · rcases List.prefix_concat_iff.mp part with same | part
          · exact absurd same differs
          · exact part
        · simp at none_left
  rw [levels, List.mem_map]
  constructor
  · rintro ⟨inner, mem, rfl⟩
    obtain ⟨mem, some_name⟩ := List.mem_filter.mp mem
    rw [Path.tails_eq, List.mem_tails] at mem
    have some_name : inner ≠ [] := of_decide_eq_true some_name
    obtain ⟨part, differs⟩ := shorter.mp (by rwa [List.reverse_reverse])
    refine ⟨part, ?_, by simpa using some_name⟩
    rcases differs with differs | rfl
    · exact differs
    · exact absurd (List.prefix_nil.mp part) (by simpa using some_name)
  · rintro ⟨part, differs, some_name⟩
    refine ⟨level.reverse, List.mem_filter.mpr ⟨?_, decide_eq_true (by simpa using some_name)⟩, List.reverse_reverse _⟩
    rw [Path.tails_eq, List.mem_tails]
    exact shorter.mpr ⟨part, .inl differs⟩

theorem pairwise_levels (names : List String) :
    (levels names).Pairwise fun nearer farther => farther.length < nearer.length := by
  rw [levels, List.pairwise_map]
  simp only [List.length_reverse]
  exact (Path.pairwise_tails _).filter _

def configAt (level : List String) : String := Path.join [Path.ofComponents true level, configFileName]

theorem proper_configFileName : Path.Proper configFileName := by decide

theorem configAt_eq {level : List String} (proper : ∀ name ∈ level, Path.Proper name) :
    configAt level = Path.ofComponents true (level ++ [configFileName]) :=
  Path.join_proper proper proper_configFileName

theorem abs_configAt (fs : FileSystem) {level : List String} (proper : ∀ name ∈ level, Path.Proper name) :
    fs.abs (configAt level) = configAt level := by
  have proper_all : ∀ name ∈ level ++ [configFileName], Path.Proper name := by
    intro name mem
    rcases List.mem_append.mp mem with mem | mem
    · exact proper name mem
    · exact List.mem_singleton.mp mem ▸ proper_configFileName
  rw [configAt_eq proper, FileSystem.abs, Path.abs, if_pos (Path.isAbs_ofComponents _),
    Path.clean_ofComponents proper_all]

theorem candidates_eq {file : String} (rooted : Path.isAbs file = true) (settled : Path.clean file = file) :
    candidates file = (levels (Path.components file)).map configAt := by
  have proper := Path.proper_of_mem_components rooted
  have whole := Path.eq_ofComponents_of_clean rooted settled
  generalize Path.components file = names at proper whole
  rcases List.eq_nil_or_concat' names with rfl | ⟨above, last, rfl⟩
  · subst whole
    decide
  · have proper_above : ∀ name ∈ above, Path.Proper name := fun name mem => proper name (List.mem_append_left _ mem)
    -- The root is left out by its path, and has no names.
    have not_root : ∀ inner ∈ Path.tails above.reverse,
        decide (Path.ofComponents true inner.reverse ≠ "/") = decide (inner ≠ []) := by
      intro inner mem
      rw [Path.tails_eq, List.mem_tails] at mem
      have proper_inner : ∀ name ∈ inner.reverse, Path.Proper name :=
        fun name mem' => proper_above name (List.mem_reverse.mp (mem.subset (List.mem_reverse.mp mem')))
      rw [decide_eq_decide, not_iff_not]
      constructor
      · intro same
        have none_left := Path.ofComponents_injective proper_inner (List.forall_mem_nil _)
          (same.trans (by decide : "/" = Path.ofComponents true []))
        simpa using none_left
      · rintro rfl
        decide
    rw [candidates, whole, Path.dir_ofComponents proper, Path.ancestors, Path.isAbs_ofComponents,
      Path.components_ofComponents proper_above, levels, List.filter_map, List.map_map, List.map_map,
      List.reverse_append, List.reverse_singleton, List.singleton_append, List.tail_cons]
    exact congrArg _ (List.filter_congr not_root)

/-! ## The first configuration that lists the file -/

/-- The configuration at a path, when it can be used and lists a file. -/
def listing? (fs : FileSystem) (member path : String) : Option Config :=
  (parse fs path).value.toOption.filter (·.owns fs member)

theorem listing?_eq_some {fs : FileSystem} {member path : String} {config : Config} :
    listing? fs member path = some config ↔ (parse fs path).value = .ok config ∧ config.owns fs member = true := by
  rw [listing?, Option.filter_eq_some_iff]
  cases (parse fs path).value <;> simp [Except.toOption]

theorem stat_of_parse {fs : FileSystem} {path : String} {config : Config}
    (parsed : (parse fs path).value = .ok config) :
    ∃ entry, fs.stat (fs.abs path) = .ok entry := by
  obtain ⟨-, raw, read, -⟩ := parse_eq_ok parsed
  rw [readRaw] at read
  split at read
  · cases read
  · rename_i content opened
    obtain ⟨location, found, file⟩ := FileSystem.read_eq_ok.mp opened
    exact ⟨.file content, by simp only [FileSystem.stat, found, file]⟩

/-- A candidate that cannot be looked at could not be read either, so that only the configuration itself counts. -/
theorem examine_eq_governing_iff {fs : FileSystem} {member path : String} (absolute : fs.abs path = path)
    {config : Config} :
    (examine fs member path).value = .governing config ↔ listing? fs member path = some config := by
  rw [listing?_eq_some]
  cases found : fs.stat path with
  | error e =>
    have unread : (parse fs path).value ≠ .ok config := by
      intro parsed
      obtain ⟨entry, there⟩ := stat_of_parse parsed
      rw [absolute, found] at there
      cases there
    simp only [examine, found, Run.value_pure, unread, false_and, iff_false]
    split <;> simp
  | ok entry =>
    simp only [examine, found, Run.value_bind]
    cases parsed : (parse fs path).value with
    | error e => simp
    | ok held => by_cases owned : held.owns fs member = true <;> simp [owned] <;> rintro rfl <;> simp [owned]

theorem search_eq_findSome? {fs : FileSystem} (file member : String) {paths : List String}
    (absolute : ∀ path ∈ paths, fs.abs path = path) :
    (search fs file member paths).value = paths.findSome? (listing? fs member) := by
  induction paths with
  | nil => rfl
  | cons path rest ih =>
    obtain ⟨absolute_path, absolute_rest⟩ := List.forall_mem_cons.mp absolute
    simp only [search, Run.value_bind]
    cases examined : (examine fs member path).value with
    | governing config =>
      rw [List.findSome?_cons, (examine_eq_governing_iff absolute_path).mp examined]
      rfl
    | absent | inaccessible | unusable | other =>
      have nothing : listing? fs member path = none := by
        rw [Option.eq_none_iff_forall_ne_some]
        intro config listed
        have governing := (examine_eq_governing_iff absolute_path).mpr listed
        rw [examined] at governing
        cases governing
      rw [List.findSome?_cons, nothing]
      exact ih absolute_rest

theorem find_eq (fs : FileSystem) (file defaults : String) :
    (find fs file defaults).value =
      ((levels (Path.components (fs.abs file))).findSome? (listing? fs (fs.canonical (fs.abs file)) ∘ configAt)).or
        (fallback fs defaults).value := by
  have rooted := fs.isAbs_abs file
  have settled : Path.clean (fs.abs file) = fs.abs file := by
    have again := fs.abs_abs file
    rwa [FileSystem.abs, Path.abs, if_pos rooted] at again
  have absolute : ∀ path ∈ (levels (Path.components (fs.abs file))).map configAt, fs.abs path = path := by
    intro path mem
    obtain ⟨level, listed, rfl⟩ := List.mem_map.mp mem
    have part := (mem_levels.mp listed).1
    exact abs_configAt fs fun name mem => Path.proper_of_mem_components rooted name (part.subset mem)
  have searched := search_eq_findSome? (fs.abs file) (fs.canonical (fs.abs file)) absolute
  rw [List.findSome?_map] at searched
  simp only [find, Run.value_bind, candidates_eq rooted settled, searched]
  cases (levels (Path.components (fs.abs file))).findSome? (listing? fs (fs.canonical (fs.abs file)) ∘ configAt) <;> rfl

theorem fallback_eq_some {fs : FileSystem} {defaults : String} {config : Config} :
    (fallback fs defaults).value = some config ↔ defaults ≠ "" ∧ (parse fs defaults).value = .ok config := by
  rw [fallback]
  split
  · simp [*]
  · rename_i given
    rw [Run.value_bind]
    cases (parse fs defaults).value <;> simp [given]

/-! ## What the search ends with -/

/-- The configuration in a directory above a file can be used and lists the file under its canonical path. -/
structure Governs (fs : FileSystem) (file : String) (level : List String) (config : Config) : Prop where
  above : level <+: Path.components (fs.abs file)
  below_file : level ≠ Path.components (fs.abs file)
  not_root : level ≠ []
  parsed : (parse fs (configAt level)).value = .ok config
  listed : fs.canonical file ∈ config.fileNames

/-- The configuration governs the file, and none in a directory nearer to the file does. -/
def GovernsNearest (fs : FileSystem) (file : String) (level : List String) (config : Config) : Prop :=
  Governs fs file level config ∧ ∀ nearer other, Governs fs file nearer other → nearer.length ≤ level.length

theorem canonical_abs (fs : FileSystem) (file : String) : fs.canonical (fs.abs file) = fs.canonical file := by
  rw [FileSystem.canonical, FileSystem.canonical, fs.abs_abs]

theorem governs_iff {fs : FileSystem} {file : String} {level : List String} {config : Config} :
    Governs fs file level config ↔
      level ∈ levels (Path.components (fs.abs file)) ∧
        listing? fs (fs.canonical (fs.abs file)) (configAt level) = some config := by
  have owned : config.owns fs (fs.canonical (fs.abs file)) = true ↔ fs.canonical file ∈ config.fileNames := by
    rw [Config.owns, canonical_abs, fs.canonical_canonical, List.contains_iff_mem]
  rw [mem_levels, listing?_eq_some, owned]
  constructor
  · intro ⟨above, below_file, not_root, parsed, listed⟩
    exact ⟨⟨above, below_file, not_root⟩, parsed, listed⟩
  · intro ⟨⟨above, below_file, not_root⟩, parsed, listed⟩
    exact ⟨above, below_file, not_root, parsed, listed⟩

theorem findSome?_levels_eq_some {fs : FileSystem} {file : String} {config : Config} :
    (levels (Path.components (fs.abs file))).findSome? (listing? fs (fs.canonical (fs.abs file)) ∘ configAt) =
    some config ↔
      ∃ level, GovernsNearest fs file level config := by
  rw [Path.findSome?_eq_some_of_pairwise (pairwise_levels _)]
  constructor
  · rintro ⟨level, mem, listed, nothing⟩
    refine ⟨level, governs_iff.mpr ⟨mem, listed⟩, fun nearer other governs => ?_⟩
    obtain ⟨mem', listed'⟩ := governs_iff.mp governs
    by_contra longer
    have none_listed : listing? fs (fs.canonical (fs.abs file)) (configAt nearer) = none :=
      nothing nearer mem' (Nat.lt_of_not_le longer)
    rw [none_listed] at listed'
    cases listed'
  · rintro ⟨level, governs, nearest⟩
    obtain ⟨mem, listed⟩ := governs_iff.mp governs
    refine ⟨level, mem, listed, fun nearer mem' longer => ?_⟩
    rw [Function.comp_apply, Option.eq_none_iff_forall_ne_some]
    intro other listed'
    exact absurd (nearest nearer other (governs_iff.mpr ⟨mem', listed'⟩)) (Nat.not_le_of_lt longer)

theorem findSome?_levels_eq_none {fs : FileSystem} {file : String} :
    (levels (Path.components (fs.abs file))).findSome? (listing? fs (fs.canonical (fs.abs file)) ∘ configAt) = none ↔
      ∀ level config, ¬ Governs fs file level config := by
  rw [List.findSome?_eq_none_iff]
  constructor
  · intro nothing level config governs
    obtain ⟨mem, listed⟩ := governs_iff.mp governs
    have none_listed : listing? fs (fs.canonical (fs.abs file)) (configAt level) = none := nothing level mem
    rw [none_listed] at listed
    cases listed
  · intro nothing level mem
    rw [Function.comp_apply, Option.eq_none_iff_forall_ne_some]
    exact fun config listed => nothing level config (governs_iff.mpr ⟨mem, listed⟩)

/-- A search ends with the nearest configuration that can be used and lists the file, and only where there is
none with the default one, whether that lists the file or not. Two file systems in which the same
configurations list the file give the same answer, whatever else their directories hold. -/
theorem find_nearest_listing (fs : FileSystem) (file defaults : String) :
    (∀ config, (find fs file defaults).value = some config ↔
      (∃ level, GovernsNearest fs file level config) ∨
        (∀ level other, ¬ Governs fs file level other) ∧ defaults ≠ "" ∧ (parse fs defaults).value = .ok config) ∧
    ((find fs file defaults).value = none ↔
      (∀ level other, ¬ Governs fs file level other) ∧ (defaults = "" ∨ ¬ Parses fs defaults)) ∧
    ∀ fs' : FileSystem, (∀ level config, Governs fs' file level config ↔ Governs fs file level config) →
      (parse fs' defaults).value = (parse fs defaults).value →
        (find fs' file defaults).value = (find fs file defaults).value := by
  have answer : ∀ (fs : FileSystem) (config : Config), (find fs file defaults).value = some config ↔
      (∃ level, GovernsNearest fs file level config) ∨
        (∀ level other, ¬ Governs fs file level other) ∧ defaults ≠ "" ∧ (parse fs defaults).value = .ok config := by
    intro fs config
    rw [find_eq, Option.or_eq_some_iff, findSome?_levels_eq_some, findSome?_levels_eq_none, fallback_eq_some]
  refine ⟨answer fs, ?_, ?_⟩
  · rw [find_eq, Option.or_eq_none_iff, findSome?_levels_eq_none, Option.eq_none_iff_forall_ne_some]
    refine and_congr_right fun _ => ?_
    simp only [ne_eq, fallback_eq_some, Parses, not_and, not_exists]
    by_cases given : defaults = "" <;> simp [given]
  · intro fs' same_governing same_defaults
    apply Option.ext
    intro config
    rw [answer, answer, same_defaults]
    simp only [GovernsNearest, same_governing]

end Project
end ScriptLoader
