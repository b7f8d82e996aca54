import ScriptLoader.Project.Members
import ScriptLoader.Proofs.FileNames
import ScriptLoader.Proofs.PlacedTrees

/-!
The files that patterns select in a tree that stands in a directory. Patterns and excludes that lie inside the
tree select the same files of it in every directory: they are compared with paths behind the name of the
directory only.
-/

set_option autoImplicit false
namespace ScriptLoader.Project
open FileTree (pathIn trail)

/-! ## Patterns inside the tree -/

section
variable {tree : FileTree} {dir : Location} {fs : FileSystem}

theorem literal_trail {location : Location} (literal : ∀ name ∈ location, ∀ c ∈ name.toList, Glob.isLiteral c = true) :
    ∀ c ∈ (trail location).toList, Glob.isLiteral c = true := by
  induction location with
  | nil => simp [trail]
  | cons name above ih =>
    obtain ⟨literal_name, literal_above⟩ := List.forall_mem_cons.mp literal
    intro c mem
    simp only [trail, String.toList_append, List.mem_append] at mem
    rcases mem with (mem | mem) | mem
    · exact ih literal_above c mem
    · have slash : c = '/' := by simpa using mem
      subst slash
      decide
    · exact literal_name c mem

theorem trail_ends {name : String} (proper : Path.Proper name) (above : Location) :
    ∃ before last, (trail (name :: above)).toList = before ++ [last] ∧ last ≠ Glob.separator := by
  have some_text : name.toList ≠ [] := by simpa using proper.some_text
  refine ⟨(trail above).toList ++ '/' :: name.toList.dropLast, name.toList.getLast some_text, ?_, ?_⟩
  · simp [trail, List.dropLast_append_getLast]
  · intro slash
    have mem := List.getLast_mem some_text
    rw [slash] at mem
    exact proper.no_slash mem

theorem isMatch_pathIn (holds : Holds tree dir fs) (pattern path : Location) :
    Glob.isMatch (pathIn dir pattern) (pathIn dir path) = Glob.isMatchWithin (trail pattern) (trail path) := by
  obtain ⟨name, above, rfl⟩ := List.exists_cons_of_ne_nil holds.below_root
  obtain ⟨before, last, ends, within⟩ := trail_ends (holds.proper name List.mem_cons_self) above
  rw [FileTree.pathIn_eq holds.below_root, FileTree.pathIn_eq holds.below_root]
  exact Glob.isMatch_append ends within (literal_trail holds.literal) _ _

theorem pathIn_append (below_root : dir ≠ []) (location : Location) (name : String) :
    pathIn dir location ++ "/" ++ name = pathIn dir (name :: location) := by
  rw [FileTree.pathIn_eq below_root, FileTree.pathIn_eq below_root, trail]
  simp only [String.append_assoc]

/-- Whether a location of a tree, or one above it, matches one of the patterns inside the tree. -/
def excludes (patterns : List Location) (path : Location) : Bool :=
  patterns.any fun pattern =>
    Glob.isMatchWithin (trail pattern) (trail path) || Glob.isMatchWithin (trail ("**" :: pattern)) (trail path)

theorem isExcluded_pathIn (holds : Holds tree dir fs) (patterns : List Location) (path : Location) :
    isExcluded (pathIn dir path) (patterns.map (pathIn dir)) = excludes patterns path := by
  have wider : ∀ pattern, pathIn dir pattern ++ "/**" = pathIn dir ("**" :: pattern) := by
    intro pattern
    rw [← pathIn_append holds.below_root, String.append_assoc]
    rfl
  simp only [isExcluded, excludes, List.any_map, Function.comp_def, wider, isMatch_pathIn holds]

/-! ## The directory of a pattern -/

theorem ext_pathIn {name : String} (no_slash : '/' ∉ name.toList) (below_root : dir ≠ []) (above : Location) :
    Path.ext (pathIn dir (name :: above)) = Path.ext name := by
  rw [← pathIn_append below_root, Path.ext_append_name no_slash]

/-- The pattern that a pattern inside the tree stands for: one without wildcards and without an extension
names a directory with all that is below it. -/
def widened (pattern : Location) : Location :=
  if (trail pattern).toList.all (fun c => !Glob.isMeta c) && Path.ext (pattern.headD "") == "" then
    "*" :: "**" :: pattern
  else pattern

theorem widened_ne_nil (pattern : Location) : widened pattern ≠ [] := by
  unfold widened
  split
  · simp
  · rename_i named
    rintro rfl
    exact named (by decide)

theorem proper_widened {pattern : Location} (proper : Path.AllProper pattern) :
    Path.AllProper (widened pattern) := by
  unfold widened
  split
  · have star : Path.Proper "*" := by decide
    have double_star : Path.Proper "**" := by decide
    exact List.forall_mem_cons.mpr ⟨star, List.forall_mem_cons.mpr ⟨double_star, proper⟩⟩
  · exact proper

theorem widen_pathIn (holds : Holds tree dir fs) {pattern : Location} (proper : Path.AllProper pattern)
    (dotless : pattern = [] → '.' ∉ (dir.headD "").toList) :
    widen (pathIn dir pattern) = pathIn dir (widened pattern) := by
  have same_ext : Path.ext (pathIn dir pattern) = Path.ext (pattern.headD "") := by
    cases pattern with
    | cons name above => exact ext_pathIn (proper name List.mem_cons_self).no_slash holds.below_root above
    | nil =>
      -- The pattern is the directory itself, and its own name must not pass for that of a file.
      obtain ⟨last, above, rfl⟩ := List.exists_cons_of_ne_nil holds.below_root
      have no_slash := (holds.proper last List.mem_cons_self).no_slash
      have no_dot : last.toList.contains '.' = false := by simpa using dotless rfl
      have whole : pathIn (last :: above) [] = trail above ++ "/" ++ last := by
        rw [FileTree.pathIn_eq holds.below_root]
        simp [trail]
      have nothing : Path.ext (([] : Location).headD "") = "" := by decide
      rw [whole, Path.ext_append_name no_slash, nothing]
      simp only [Path.ext, Path.splitLast_of_not_mem no_slash, no_dot, Bool.false_eq_true, if_false]
  have literal : (trail dir).toList.all (fun c => !Glob.isMeta c) = true := by
    rw [List.all_eq_true]
    intro c mem
    have stands := literal_trail holds.literal c mem
    rw [Glob.isLiteral, Bool.and_eq_true] at stands
    exact stands.1
  have same_chars : (pathIn dir pattern).toList.all (fun c => !Glob.isMeta c) =
      (trail pattern).toList.all fun c => !Glob.isMeta c := by
    rw [FileTree.pathIn_eq holds.below_root, String.toList_append, List.all_append, literal, Bool.true_and]
  rw [widen, same_ext, same_chars, widened]
  split
  · rw [← pathIn_append holds.below_root, ← pathIn_append holds.below_root]
    simp only [String.append_assoc]
    rfl
  · rfl

def unescaped (name : String) : String := String.ofList (Glob.unescape name.toList)

theorem proper_unescaped {name : String} (proper : Path.Proper name) : Path.Proper (unescaped name) := by
  have chars : (unescaped name).toList = Glob.unescape name.toList := String.toList_ofList
  have no_slash : '/' ∉ (unescaped name).toList := by
    rw [chars]
    exact fun mem => proper.no_slash (Glob.mem_of_mem_unescape mem)
  rcases Glob.unescape_eq_or name.toList with same | ⟨c, mem, special⟩
  · have whole : unescaped name = name := by rw [unescaped, same, String.ofList_toList]
    rwa [whole]
  · rw [← chars] at mem
    have other : ∀ text : String, (∀ d ∈ text.toList, ¬ (Glob.isMeta d ∨ d = ']' ∨ d = '\x7d')) →
        unescaped name ≠ text := by
      intro text plain same
      rw [same] at mem
      exact plain c mem special
    exact ⟨other "" (by simp), other "." (by simp [Glob.isMeta]), other ".." (by simp [Glob.isMeta]), no_slash⟩

theorem unescape_trail (location : Location) :
    Glob.unescape (trail location).toList = (trail (location.map unescaped)).toList := by
  induction location with
  | nil => rfl
  | cons name above ih =>
    have chars : (trail (name :: above)).toList = (trail above).toList ++ Glob.separator :: name.toList := by
      simp [trail, Glob.separator]
    rw [chars, Glob.unescape_append_separator, ih]
    simp [trail, unescaped, Glob.separator]

/-- What stands before a separator of a trail is the trail of a location above. -/
theorem take_trail {location : Location} (proper : Path.AllProper location) {place : Nat}
    (divides : (trail location).toList[place]? = some Glob.separator) :
    ∃ inner, inner <:+ location ∧ (trail location).toList.take place = (trail inner).toList := by
  induction location with
  | nil => simp [trail] at divides
  | cons name above ih =>
    obtain ⟨proper_name, proper_above⟩ := List.forall_mem_cons.mp proper
    have chars : (trail (name :: above)).toList = (trail above).toList ++ Glob.separator :: name.toList := by
      simp [trail, Glob.separator]
    rw [chars] at divides ⊢
    rcases Nat.lt_trichotomy place (trail above).toList.length with before | there | behind
    · rw [List.getElem?_append_left before] at divides
      obtain ⟨inner, part, taken⟩ := ih proper_above divides
      refine ⟨inner, part.trans (List.suffix_cons name above), ?_⟩
      rw [List.take_append_of_le_length before.le, taken]
    · exact ⟨above, List.suffix_cons name above, by rw [there, List.take_left]⟩
    · -- Behind the last separator there is only the name, which has none.
      rw [List.getElem?_append_right behind.le] at divides
      obtain ⟨offset, same⟩ : ∃ offset, place - (trail above).toList.length = offset + 1 :=
        ⟨place - (trail above).toList.length - 1, by omega⟩
      rw [same, List.getElem?_cons_succ] at divides
      exact absurd (List.mem_of_getElem? divides) proper_name.no_slash

end

theorem exists_separator_cons {location : Location} (some_name : location ≠ []) :
    ∃ rest, (trail location).toList = Glob.separator :: rest := by
  obtain ⟨first, above, rfl⟩ : ∃ first above, location = above ++ [first] :=
    (List.eq_nil_or_concat' location).elim (fun none_left => absurd none_left some_name)
      fun ⟨above, first, whole⟩ => ⟨first, above, whole⟩
  exact ⟨_, by rw [FileTree.trail_append]; simp [trail, Glob.separator]; rfl⟩

/-- All matches of a pattern inside the tree lie below a location that does not depend on the directory. -/
theorem exists_base {pattern : Location} (some_name : pattern ≠ []) (proper : Path.AllProper pattern) :
    ∃ inner : Location, Path.AllProper inner ∧
      ∀ (tree : FileTree) (dir : Location) (fs : FileSystem), Holds tree dir fs →
        Glob.base (pathIn dir pattern) = pathIn dir inner := by
  obtain ⟨rest, chars⟩ := exists_separator_cons some_name
  -- The part inside the tree begins with a separator, so that the pattern is cut within that part.
  obtain ⟨place, divides, based⟩ := Glob.exists_base_append rest
  rw [← chars] at divides based
  obtain ⟨inner, part, taken⟩ := take_trail proper divides
  refine ⟨inner.map unescaped, ?_, ?_⟩
  · intro name mem
    obtain ⟨own, listed, rfl⟩ := List.mem_map.mp mem
    exact proper_unescaped (proper own (part.subset listed))
  · intro tree dir fs holds
    have some_text : trail dir ≠ "" := by
      obtain ⟨name, above, rfl⟩ := List.exists_cons_of_ne_nil holds.below_root
      intro empty
      have size := congrArg String.length empty
      simp [trail] at size
    have below := based (trail dir) some_text (literal_trail holds.literal)
    rw [taken, unescape_trail, String.ofList_toList, String.ofList_toList] at below
    rw [FileTree.pathIn_eq holds.below_root, FileTree.pathIn_eq holds.below_root, below]

/-! ## The walk -/

/-- The state of a walk through a tree, by the locations of the tree. -/
structure Tour where
  visited : List Location
  found : List Location

namespace Tour

def walk (tour : Tour) (dir : Location) : Walk :=
  ⟨tour.visited.map (pathIn dir), tour.found.map fun location => .file (pathIn dir location)⟩

def Proper (tour : Tour) : Prop :=
  (∀ location ∈ tour.visited, Path.AllProper location) ∧ ∀ location ∈ tour.found, Path.AllProper location

end Tour

section
variable {tree : FileTree} {dir : Location} {fs : FileSystem}

/-- The number of directories at a location and below. -/
def height (tree : FileTree) (location : Location) : Nat := tree.directories.countP location.isSuffixOf

theorem mem_directories {location : Location} (directory : tree.entry? location = some .directory) :
    location ∈ tree.directories := by
  cases location with
  | nil => exact List.mem_cons_self
  | cons name above =>
    obtain ⟨before, after, entries, -⟩ := List.lookup_eq_some_iff.mp directory
    refine List.mem_cons_of_mem _ (List.mem_filterMap.mpr ⟨(name :: above, .directory), ?_, rfl⟩)
    simp [entries]

theorem height_lt {location : Location} (directory : tree.entry? location = some .directory) (name : String) :
    height tree (name :: location) < height tree location := by
  have below : ∀ other : Location, (name :: location).isSuffixOf other = true → location.isSuffixOf other = true := by
    intro other part
    rw [List.isSuffixOf_iff_suffix] at part ⊢
    exact (List.suffix_cons name location).trans part
  have own : location.isSuffixOf location = true := List.isSuffixOf_iff_suffix.mpr List.suffix_rfl
  have not_own : ¬ (name :: location).isSuffixOf location = true := by
    rw [List.isSuffixOf_iff_suffix]
    intro part
    have long := part.length_le
    simp only [List.length_cons] at long
    omega
  obtain ⟨before, after, whole⟩ := List.append_of_mem (mem_directories directory)
  have first := List.countP_mono_left fun other (_ : other ∈ before) => below other
  have second := List.countP_mono_left fun other (_ : other ∈ after) => below other
  unfold height
  rw [whole, List.countP_append, List.countP_append, List.countP_cons_of_pos own, List.countP_cons_of_neg not_own]
  omega

theorem height_le (tree : FileTree) (location : Location) : height tree location ≤ tree.directories.length :=
  List.countP_le_length

theorem join_name (holds : Holds tree dir fs) {location : Location} (proper : Path.AllProper location)
    {name : String} (proper_name : Path.Proper name) :
    Path.join [pathIn dir location, name] = pathIn dir (name :: location) := by
  have down : FileTree.descend? location (Text.pieces name '/') = some (name :: location) := by
    have entered : FileTree.enter? location name = some (name :: location) := by
      simp [FileTree.enter?, proper_name.some_text, proper_name.not_here, proper_name.not_up]
    rw [Text.pieces_of_not_mem proper_name.no_slash, FileTree.descend?, List.foldlM_cons, entered]
    rfl
  exact FileTree.join_pathIn holds.proper proper down

/-- Whether a pattern inside the tree, under excludes inside the tree, selects a file of a name in a directory. -/
def selects (pattern : Location) (patterns : List Location) (name : String) (location : Location) : Bool :=
  sourceExtensions.contains (Path.ext name) && !excludes patterns (name :: location) &&
    Glob.isMatchWithin (trail pattern) (trail (name :: location))

theorem isSelected_pathIn (holds : Holds tree dir fs) (pattern : Location) (patterns : List Location) {name : String}
    (proper : Path.Proper name) (location : Location) :
    isSelected (pathIn dir pattern) (patterns.map (pathIn dir)) (pathIn dir (name :: location)) =
      selects pattern patterns name location := by
  rw [isSelected, hasSourceExtension, ext_pathIn proper.no_slash holds.below_root,
    isExcluded_pathIn holds, isMatch_pathIn holds]
  rfl

theorem contains_pathIn (holds : Holds tree dir fs) {location : Location} (proper : Path.AllProper location)
    {visited : List Location} (proper_visited : ∀ other ∈ visited, Path.AllProper other) :
    (visited.map (pathIn dir)).contains (pathIn dir location) = visited.contains location := by
  rw [Bool.eq_iff_iff, List.contains_iff_mem, List.contains_iff_mem, List.mem_map]
  constructor
  · rintro ⟨other, mem, same⟩
    rwa [← FileTree.pathIn_injective holds.proper (proper_visited other mem) proper same]
  · intro mem
    exact ⟨location, mem, rfl⟩

end

def visit (fs : FileSystem) (pattern : String) (leftOut : List String) (fuel : Nat) (path : String) (walk : Walk)
    (item : FileSystem.Listed) : Walk :=
  let child := Path.join [path, item.name]
  match leadsToDirectory? fs child item.entry with
  | none => walk.saw (.dangling child)
  | some true =>
    if Text.startsWith item.name "." || isExcluded child leftOut then walk
    else walkDirectory fs pattern leftOut fuel child walk
  | some false => if isSelected pattern leftOut child then walk.saw (.file child) else walk

theorem walkDirectory_succ (fs : FileSystem) (pattern : String) (leftOut : List String) (fuel : Nat) (path : String)
    (walk : Walk) :
    walkDirectory fs pattern leftOut (fuel + 1) path walk =
      match fs.realPath? path with
      | none => walk
      | some real =>
        if walk.visited.contains real then walk
        else match fs.list? path with
          | none => { walk with visited := real :: walk.visited }
          | some listed =>
            listed.foldl (visit fs pattern leftOut fuel path) { walk with visited := real :: walk.visited } := rfl

section
variable {tree : FileTree} (pattern : Location) (patterns : List Location)

/-- With an entry of the tree a walk does the same in every directory, if it does so in the directories below. -/
theorem exists_visit (plain : tree.WithoutLinks) {location : Location} {name : String} {entry : Entry}
    (proper : Path.AllProper location)
    (proper_name : Path.Proper name) (directory : tree.entry? location = some .directory)
    (held : tree.entry? (name :: location) = some entry)
    (below : ∀ tour : Tour, tour.Proper → ∃ last : Tour, last.Proper ∧
      ∀ (dir : Location) (fs : FileSystem) (fuel : Nat), Holds tree dir fs → height tree (name :: location) < fuel →
        walkDirectory fs (pathIn dir pattern) (patterns.map (pathIn dir)) fuel (pathIn dir (name :: location))
        (tour.walk dir) =
          last.walk dir)
    {tour : Tour} (proper_tour : tour.Proper) :
    ∃ last : Tour, last.Proper ∧ ∀ (dir : Location) (fs : FileSystem) (fuel : Nat), Holds tree dir fs →
      height tree location < fuel + 1 →
      visit fs (pathIn dir pattern) (patterns.map (pathIn dir)) fuel (pathIn dir location)
      (tour.walk dir) ⟨name, entry⟩ =
        last.walk dir := by
  have less := height_lt directory name
  cases entry with
  | link target => exact absurd held (plain.entry?_ne_link _ _)
  | directory =>
    by_cases passed : (Text.startsWith name "." || excludes patterns (name :: location)) = true
    · refine ⟨tour, proper_tour, fun dir fs fuel holds _ => ?_⟩
      simp only [visit, join_name holds proper proper_name, leadsToDirectory?, isExcluded_pathIn holds, passed, if_true]
    · obtain ⟨last, proper_last, walked⟩ := below tour proper_tour
      refine ⟨last, proper_last, fun dir fs fuel holds enough => ?_⟩
      simp only [visit, join_name holds proper proper_name, leadsToDirectory?, isExcluded_pathIn holds, passed,
        Bool.false_eq_true, if_false]
      exact walked dir fs fuel holds (by omega)
  | file content =>
    by_cases selected : selects pattern patterns name location = true
    · refine ⟨⟨tour.visited, tour.found ++ [name :: location]⟩, ⟨proper_tour.1, ?_⟩, fun dir fs fuel holds _ => ?_⟩
      · intro other mem
        rcases List.mem_append.mp mem with mem | mem
        · exact proper_tour.2 other mem
        · rw [List.mem_singleton.mp mem]
          exact List.forall_mem_cons.mpr ⟨proper_name, proper⟩
      · simp only [visit, join_name holds proper proper_name, leadsToDirectory?,
          isSelected_pathIn holds _ _ proper_name, selected, if_true]
        simp [Walk.saw, Tour.walk]
    · refine ⟨tour, proper_tour, fun dir fs fuel holds _ => ?_⟩
      simp only [visit, join_name holds proper proper_name, leadsToDirectory?,
        isSelected_pathIn holds _ _ proper_name, selected, Bool.false_eq_true, if_false]

/-- So it does with entries one after another. -/
theorem exists_foldl_visit {location : Location} {items : List FileSystem.Listed}
    (each : ∀ item ∈ items, ∀ tour : Tour, tour.Proper → ∃ last : Tour, last.Proper ∧
      ∀ (dir : Location) (fs : FileSystem) (fuel : Nat), Holds tree dir fs → height tree location < fuel + 1 →
        visit fs (pathIn dir pattern) (patterns.map (pathIn dir)) fuel (pathIn dir location) (tour.walk dir) item =
        last.walk dir)
    {tour : Tour} (proper_tour : tour.Proper) :
    ∃ last : Tour, last.Proper ∧ ∀ (dir : Location) (fs : FileSystem) (fuel : Nat), Holds tree dir fs →
      height tree location < fuel + 1 →
      items.foldl (visit fs (pathIn dir pattern) (patterns.map (pathIn dir)) fuel (pathIn dir location))
      (tour.walk dir) =
        last.walk dir := by
  induction items generalizing tour with
  | nil => exact ⟨tour, proper_tour, fun _ _ _ _ _ => rfl⟩
  | cons item rest ih =>
    obtain ⟨next, proper_next, visited⟩ := each item List.mem_cons_self tour proper_tour
    obtain ⟨last, proper_last, ended⟩ := ih (fun other mem => each other (List.mem_cons_of_mem _ mem)) proper_next
    refine ⟨last, proper_last, fun dir fs fuel holds enough => ?_⟩
    rw [List.foldl_cons, visited dir fs fuel holds enough, ended dir fs fuel holds enough]

/-- A walk through the tree comes across the same files of it in every directory that holds the tree. -/
theorem exists_walk (plain : tree.WithoutLinks) (named : tree.WellNamed) {bound : Nat} {location : Location}
    (bounded : height tree location < bound)
    (proper : Path.AllProper location) {tour : Tour} (proper_tour : tour.Proper) :
    ∃ last : Tour, last.Proper ∧ ∀ (dir : Location) (fs : FileSystem) (fuel : Nat), Holds tree dir fs →
      height tree location < fuel →
      walkDirectory fs (pathIn dir pattern) (patterns.map (pathIn dir)) fuel (pathIn dir location) (tour.walk dir) =
        last.walk dir := by
  induction bound generalizing location tour with
  | zero => omega
  | succ bound ih =>
    -- It is enough to look at a walk that is given a further step.
    suffices further : ∃ last : Tour, last.Proper ∧ ∀ (dir : Location) (fs : FileSystem) (fuel : Nat),
      Holds tree dir fs →
        height tree location < fuel + 1 →
        walkDirectory fs (pathIn dir pattern) (patterns.map (pathIn dir)) (fuel + 1)
        (pathIn dir location) (tour.walk dir) =
          last.walk dir by
      obtain ⟨last, proper_last, walked⟩ := further
      refine ⟨last, proper_last, fun dir fs fuel holds enough => ?_⟩
      obtain ⟨fuel, rfl⟩ : ∃ k, fuel = k + 1 := ⟨fuel - 1, by omega⟩
      exact walked dir fs fuel holds enough
    by_cases reached : FileTree.Reached tree location
    · by_cases seen : tour.visited.contains location = true
      · refine ⟨tour, proper_tour, fun dir fs fuel holds _ => ?_⟩
        have again : (tour.walk dir).visited.contains (pathIn dir location) = true := by
          rw [Tour.walk, contains_pathIn holds proper proper_tour.1, seen]
        simp only [walkDirectory_succ, holds.realPath?_of_reached plain proper reached, again, if_true]
      · have entered : Tour.Proper ⟨location :: tour.visited, tour.found⟩ :=
          ⟨List.forall_mem_cons.mpr ⟨proper, proper_tour.1⟩, proper_tour.2⟩
        have new : ∀ {dir : Location} {fs : FileSystem}, Holds tree dir fs →
            ¬ (tour.walk dir).visited.contains (pathIn dir location) = true := by
          intro dir fs holds
          rwa [Tour.walk, contains_pathIn holds proper proper_tour.1]
        cases reached with
        | file walkable usable file =>
          refine ⟨_, entered, fun dir fs fuel holds _ => ?_⟩
          simp only [walkDirectory_succ, holds.realPath?_of_reached plain proper (.file walkable usable file),
            new holds, Bool.false_eq_true, if_false, holds.list?_of_file plain proper file]
          rfl
        | directory walkable =>
          -- Below the directory there are fewer directories, so that the visits are within the induction.
          have each : ∀ item ∈ tree.listing location, ∀ tour : Tour, tour.Proper → ∃ last : Tour, last.Proper ∧
              ∀ (dir : Location) (fs : FileSystem) (fuel : Nat), Holds tree dir fs → height tree location < fuel + 1 →
                visit fs (pathIn dir pattern) (patterns.map (pathIn dir)) fuel
                (pathIn dir location) (tour.walk dir) item =
                  last.walk dir := by
            intro item mem tour proper_tour
            obtain ⟨listed, held⟩ := FileTree.of_mem_listing mem
            have proper_name := (named.of_mem_names listed).toProper
            have less := height_lt walkable.entry? item.name
            exact exists_visit pattern patterns plain proper proper_name walkable.entry? held
              (fun tour proper_tour =>
                ih (by omega) (List.forall_mem_cons.mpr ⟨proper_name, proper⟩) proper_tour) proper_tour
          obtain ⟨last, proper_last, folded⟩ := exists_foldl_visit pattern patterns each entered
          refine ⟨last, proper_last, fun dir fs fuel holds enough => ?_⟩
          rw [walkDirectory_succ, holds.realPath?_of_reached plain proper (.directory walkable),
            holds.list?_of_walkable plain proper walkable]
          simp only [new holds, Bool.false_eq_true, if_false]
          exact folded dir fs fuel holds enough
    · refine ⟨tour, proper_tour, fun dir fs fuel holds _ => ?_⟩
      simp only [walkDirectory_succ, holds.realPath?_of_not_reached plain proper reached]

theorem exists_sightings (plain : tree.WithoutLinks) (named : tree.WellNamed) (proper : Path.AllProper pattern) :
    ∃ found : List Location, (∀ location ∈ found, Path.AllProper location) ∧
      ∀ (dir : Location) (fs : FileSystem), Holds tree dir fs → (pattern = [] → '.' ∉ (dir.headD "").toList) →
        sightings fs (pathIn dir pattern) (patterns.map (pathIn dir)) =
          found.map fun location => .file (pathIn dir location) := by
  obtain ⟨inner, proper_inner, based⟩ := exists_base (widened_ne_nil pattern) (proper_widened proper)
  have nothing_yet : Tour.Proper ⟨[], []⟩ := by simp [Tour.Proper]
  obtain ⟨last, proper_last, walked⟩ :=
    exists_walk (widened pattern) patterns plain named (Nat.lt_succ_self _) proper_inner nothing_yet
  refine ⟨last.found, proper_last.2, fun dir fs holds dotless => ?_⟩
  have enough : height tree inner < fs.tree.directories.length + 1 := by
    have most := height_le tree inner
    have kept : tree.directories.length ≤ (tree.placed dir).directories.length := FileTree.length_directories_placed
    rw [holds.placed]
    omega
  simp only [sightings, widen_pathIn holds proper dotless, based tree dir fs holds]
  exact congrArg Walk.sightings (walked dir fs _ holds enough)

end

end ScriptLoader.Project
