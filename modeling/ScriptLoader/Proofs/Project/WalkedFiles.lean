import ScriptLoader.Proofs.FormedTrees
import ScriptLoader.Proofs.Project.PlacedMembers

/-!
The files that a walk finds in a tree without links: those below the base of the pattern to which no hidden
directory leads and none that is left out, each once, one directory after another in order of the names.
-/

set_option autoImplicit false
namespace ScriptLoader.Project
open FileTree (pathOf)

/-- A directory below the base that is neither hidden nor left out. -/
def Entered (excludes : List String) (location : Location) : Prop :=
  Text.startsWith (location.headD "") "." = false ∧ isExcluded (pathOf location) excludes = false

instance (excludes : List String) (location : Location) : Decidable (Entered excludes location) :=
  inferInstanceAs (Decidable (_ ∧ _))

/-- What an entry of a directory adds to the files found; `below` gives those of a directory that is entered.
The system must be able to open the directory by its path. -/
def filesAt (pattern : String) (excludes : List String) (below : Location → List Location) (directory : Location)
    (item : FileSystem.Listed) : List Location :=
  match item.entry with
  | .link _ => []
  | .directory =>
    if Entered excludes (item.name :: directory) ∧ FileSystem.Openable (pathOf (item.name :: directory)) then
      below (item.name :: directory)
    else []
  | .file _ => if isSelected pattern excludes (pathOf (item.name :: directory)) then [item.name :: directory] else []

def filesFrom (tree : FileTree) (pattern : String) (excludes : List String) : Nat → Location → List Location
  | 0, _ => []
  | fuel + 1, directory =>
    (tree.listing directory).flatMap (filesAt pattern excludes (filesFrom tree pattern excludes fuel) directory)

/-- A file below a directory that a walk selects, and to which it comes through directories that it enters. -/
structure Finds (tree : FileTree) (pattern : String) (excludes : List String) (directory file : Location) : Prop where
  below : directory <:+ file
  is_file : ∃ content, tree.entry? file = some (.file content)
  entered : ∀ between, directory <:+ between → between ≠ directory → between <:+ file → between ≠ file →
    Entered excludes between
  selected : hasSourceExtension (pathOf file) = true ∧ isExcluded (pathOf file) excludes = false ∧
    Glob.isMatch pattern (pathOf file) = true

theorem isSelected_iff {pattern path : String} {excludes : List String} :
    isSelected pattern excludes path = true ↔
      hasSourceExtension path = true ∧ isExcluded path excludes = false ∧ Glob.isMatch pattern path = true := by
  simp only [isSelected, Bool.and_eq_true, Bool.not_eq_true', and_assoc]

/-- Of two files that comes first which has, where their names from the root on part, the name whose bytes
come first. -/
def InFront (names others : List String) : Prop := List.Lex Text.Utf8.Precedes names others

theorem InFront.irrefl (names : List String) : ¬ InFront names names := by
  induction names with
  | nil => exact fun before => by cases before
  | cons name rest ih =>
    rintro (_ | before | before)
    · exact Text.Utf8.Precedes.irrefl name before
    · exact ih before

theorem InFront.append_left {names others : List String} (before : InFront names others) (shared : List String) :
    InFront (shared ++ names) (shared ++ others) := by
  induction shared with
  | nil => exact before
  | cons name rest ih => exact .cons ih

section
variable {tree : FileTree} {pattern : String} {excludes : List String} {directory file : Location}

/-! ## What is found -/

theorem exists_step (below : directory <:+ file) (differs : directory ≠ file) :
    ∃ name, (name :: directory) <:+ file := by
  obtain ⟨inner, rfl⟩ := below
  rcases List.eq_nil_or_concat inner with rfl | ⟨rest, name, rfl⟩
  · exact absurd rfl differs
  · exact ⟨name, rest, by simp⟩

theorem finds_in {name : String} {content : List UInt8} (held : tree.entry? (name :: directory) = some (.file content))
    (selected : isSelected pattern excludes (pathOf (name :: directory)) = true) :
    Finds tree pattern excludes directory (name :: directory) where
  below := List.suffix_cons name directory
  is_file := ⟨content, held⟩
  entered := by
    -- There is no room between a directory and what is in it.
    intro between above apart part differs
    have inner : between <:+ directory := (List.suffix_cons_iff.mp part).resolve_left differs
    exact absurd (inner.eq_of_length (Nat.le_antisymm inner.length_le above.length_le)) apart
  selected := isSelected_iff.mp selected

theorem Finds.enter {name : String} (finds : Finds tree pattern excludes (name :: directory) file)
    (entered : Entered excludes (name :: directory)) : Finds tree pattern excludes directory file where
  below := (List.suffix_cons name directory).trans finds.below
  is_file := finds.is_file
  entered := by
    intro between above apart part differs
    rcases List.suffix_or_suffix_of_suffix part finds.below with outer | inner
    · rcases List.suffix_cons_iff.mp outer with rfl | further
      · exact entered
      · exact absurd (further.eq_of_length (Nat.le_antisymm further.length_le above.length_le)) apart
    · by_cases same : between = name :: directory
      · exact same ▸ entered
      · exact finds.entered between inner same part differs
  selected := finds.selected

theorem Finds.components_pathOf (formed : tree.WellFormed) (finds : Finds tree pattern excludes directory file) :
    Path.components (pathOf file) = file.reverse := by
  obtain ⟨_, held⟩ := finds.is_file
  exact Path.components_ofComponents fun name mem => formed.proper held name (List.mem_reverse.mp mem)

theorem finds_of_mem_filesFrom {fuel : Nat} (openable : FileSystem.Openable (pathOf directory))
    (mem : file ∈ filesFrom tree pattern excludes fuel directory) :
    Finds tree pattern excludes directory file ∧ FileSystem.Openable (pathOf file.tail) := by
  induction fuel generalizing directory with
  | zero => cases mem
  | succ fuel ih =>
    obtain ⟨⟨name, entry⟩, listed, mem⟩ := List.mem_flatMap.mp mem
    have held : tree.entry? (name :: directory) = some entry := FileTree.mem_listing.mp listed
    cases entry with
    | link target => cases mem
    | directory =>
      simp only [filesAt] at mem
      split at mem
      · rename_i entered
        obtain ⟨finds, above⟩ := ih entered.2 mem
        exact ⟨finds.enter entered.1, above⟩
      · cases mem
    | file content =>
      simp only [filesAt] at mem
      split at mem
      · rename_i selected
        rw [List.mem_singleton.mp mem]
        exact ⟨finds_in held selected, openable⟩
      · cases mem

theorem openable_of_suffix {above below : Location} (part : above <:+ below)
    (openable : FileSystem.Openable (pathOf below)) :
    FileSystem.Openable (pathOf above) :=
  openable.of_sublist (Path.ofComponents_sublist (List.reverse_sublist.mpr part.sublist))

/-- With as many steps as there are directories below, nothing is missed that is in a directory to be opened. -/
theorem mem_filesFrom_of_finds (formed : tree.WellFormed) {fuel : Nat}
    (at_directory : tree.entry? directory = some .directory)
    (enough : height tree directory < fuel) (finds : Finds tree pattern excludes directory file)
    (openable : FileSystem.Openable (pathOf file.tail)) : file ∈ filesFrom tree pattern excludes fuel directory := by
  -- The induction is on the fuel: one name further on the way to the file, there are fewer directories below.
  induction fuel generalizing directory with
  | zero => omega
  | succ fuel ih =>
    obtain ⟨content, held⟩ := finds.is_file
    have apart : directory ≠ file := by
      rintro rfl
      rw [at_directory] at held
      cases held
    obtain ⟨name, part⟩ := exists_step finds.below apart
    by_cases last : name :: directory = file
    · subst last
      refine List.mem_flatMap.mpr ⟨⟨name, .file content⟩, FileTree.mem_listing.mpr held, ?_⟩
      simp only [filesAt, isSelected_iff.mpr finds.selected, if_true, List.mem_singleton]
    · have inner : tree.entry? (name :: directory) = some .directory := formed.directory_of_suffix held part last
      have entered : Entered excludes (name :: directory) :=
        finds.entered _ (List.suffix_cons name directory) (by simp) part last
      have above : name :: directory <:+ file.tail := by
        obtain ⟨first, rest, rfl⟩ := List.exists_cons_of_ne_nil fun empty : file = [] => by simp [empty] at part
        exact (List.suffix_cons_iff.mp part).resolve_left last
      refine List.mem_flatMap.mpr ⟨⟨name, .directory⟩, FileTree.mem_listing.mpr inner, ?_⟩
      simp only [filesAt, entered, openable_of_suffix above openable, and_self, if_true]
      have less := height_lt at_directory name
      refine ih inner (by omega) ⟨part, finds.is_file, ?_, finds.selected⟩
      intro between above differs
      refine finds.entered between ((List.suffix_cons name directory).trans above) ?_
      rintro rfl
      have long := above.length_le
      simp at long

/-! ## The order -/

/-- A file found through an entry of a directory lies at the entry or below it. -/
theorem suffix_of_mem_filesAt {fuel : Nat} {item : FileSystem.Listed}
    (mem : file ∈ filesAt pattern excludes (filesFrom tree pattern excludes fuel) directory item) :
    (item.name :: directory) <:+ file := by
  unfold filesAt at mem
  split at mem
  · cases mem
  · split at mem
    · rename_i entered
      exact (finds_of_mem_filesFrom entered.2 mem).1.below
    · cases mem
  · split at mem
    · rw [List.mem_singleton.mp mem]
    · cases mem

theorem inFront_reverse {first second : String} {file' : Location} (before : Text.Utf8.Precedes first second)
    (part : (first :: directory) <:+ file) (part' : (second :: directory) <:+ file') :
    InFront file.reverse file'.reverse := by
  obtain ⟨inner, rfl⟩ := part
  obtain ⟨inner', rfl⟩ := part'
  simp only [List.reverse_append, List.reverse_cons, List.append_assoc, List.singleton_append]
  exact InFront.append_left (.rel before) _

/-- The files are found in the order of their names from the root on. -/
theorem increasing_filesFrom (fuel : Nat) (directory : Location) :
    (filesFrom tree pattern excludes fuel directory).Pairwise fun file file' => InFront file.reverse file'.reverse := by
  induction fuel generalizing directory with
  | zero => exact .nil
  | succ fuel ih =>
    rw [filesFrom, List.pairwise_flatMap]
    constructor
    · intro item _
      unfold filesAt
      split
      · exact .nil
      · split
        · exact ih _
        · exact .nil
      · split
        · exact List.pairwise_singleton ..
        · exact .nil
    · refine (tree.increasing_listing directory).imp ?_
      intro first second before file mem file' mem'
      exact inFront_reverse before (suffix_of_mem_filesAt mem) (suffix_of_mem_filesAt mem')

end

/-! ## The walk -/

/-- An absolute path that leads to a directory, however many links may be followed. -/
structure Leads (fs : FileSystem) (path : String) (directory : Location) : Prop where
  rooted : Path.isAbs path = true
  located : ∀ links, fs.locate links path = .ok directory
  is_directory : fs.tree.entry? directory = some .directory

/-- Nothing at a directory or below it has been visited. -/
def Walk.Clear (walk : Walk) (directory : Location) : Prop :=
  ∀ location, directory <:+ location → Path.AllProper location → pathOf location ∉ walk.visited

/-- A walk goes on to another one: it finds files, and visits nothing outside a directory. -/
structure Walk.Adds (walk later : Walk) (directory : Location) (files : List Location) : Prop where
  sightings : later.sightings = walk.sightings ++ files.map fun file => .file (pathOf file)
  visited : ∀ path ∈ later.visited, path ∈ walk.visited ∨
    ∃ location, directory <:+ location ∧ Path.AllProper location ∧ path = pathOf location

namespace Walk
variable {walk later last : Walk} {directory : Location}

theorem Adds.nothing (walk : Walk) (directory : Location) : walk.Adds walk directory [] :=
  ⟨by simp, fun _ mem => .inl mem⟩

theorem Adds.outward {inner : Location} {files : List Location} (adds : walk.Adds later inner files)
    (part : directory <:+ inner) : walk.Adds later directory files where
  sightings := adds.sightings
  visited := fun path mem => (adds.visited path mem).imp_right fun ⟨location, below, rest⟩ =>
    ⟨location, part.trans below, rest⟩

theorem Adds.trans {files more : List Location} (adds : walk.Adds later directory files)
    (adds_more : later.Adds last directory more) : walk.Adds last directory (files ++ more) where
  sightings := by rw [adds_more.sightings, adds.sightings, List.map_append, List.append_assoc]
  visited := fun path mem => (adds_more.visited path mem).elim (adds.visited path) .inr

theorem pathOf_injective {location other : Location} (proper : Path.AllProper location) (proper' : Path.AllProper other)
    (same : pathOf location = pathOf other) : location = other := by
  have names := Path.ofComponents_injective (fun name mem => proper name (List.mem_reverse.mp mem))
    (fun name mem => proper' name (List.mem_reverse.mp mem)) same
  exact List.reverse_inj.mp names

/-- What is visited in one place of a directory leaves the other places clear. -/
theorem Adds.clear {name other : String} {files : List Location} (adds : walk.Adds later (name :: directory) files)
    (differs : name ≠ other) (clear : walk.Clear (other :: directory)) : later.Clear (other :: directory) := by
  intro location below proper mem
  rcases adds.visited _ mem with before | ⟨location', below', proper', same⟩
  · exact clear location below proper before
  · obtain rfl := pathOf_injective proper proper' same
    have beside : name :: directory = other :: directory :=
      (List.suffix_of_suffix_length_le below' below (Nat.le_refl _)).eq_of_length rfl
    exact differs (List.cons.inj beside).1

end Walk

section
variable {fs : FileSystem} (plain : fs.tree.WithoutLinks)
  (formed : fs.tree.WellFormed) {path : String} {directory : Location}

theorem Leads.list? (leads : Leads fs path directory) : fs.list? path = some (fs.tree.listing directory) := by
  simp only [FileSystem.list?, leads.located, leads.is_directory, if_true, FileTree.listing]

include plain in
theorem Leads.realPath? (leads : Leads fs path directory) : fs.realPath? path = some (pathOf directory) :=
  FileSystem.realPath?_of_resolve (FileSystem.resolve_of_locate plain leads.rooted (leads.located 0))

include plain in
theorem Leads.openable (leads : Leads fs path directory) : FileSystem.Openable (pathOf directory) :=
  FileSystem.openable_of_resolve (FileSystem.resolve_of_locate plain leads.rooted (leads.located 0))

include plain in
theorem Leads.join (leads : Leads fs path directory) {name : String} (proper : Path.Proper name) :
    Path.join [path, name] = pathOf (name :: directory) := by
  have spelled := FileSystem.eq_components_of_locate plain leads.rooted (leads.located 0)
  rw [Path.join_eq leads.rooted, ← spelled, Text.pieces_of_not_mem proper.no_slash, List.foldl_cons, List.foldl_nil,
    proper.push, pathOf]

include plain formed in
theorem leads_of_openable (at_directory : fs.tree.entry? directory = some .directory)
    (openable : FileSystem.Openable (pathOf directory)) : Leads fs (pathOf directory) directory where
  rooted := Path.isAbs_ofComponents _
  located := fun links => (FileSystem.locate_pathOf plain (formed.proper at_directory) links).mpr
    ⟨rfl, .directory (formed.walkable at_directory), openable⟩
  is_directory := at_directory

theorem walkDirectory_nowhere {pattern : String} {excludes : List String} (nowhere : fs.realPath? path = none)
    (fuel : Nat) (walk : Walk) : walkDirectory fs pattern excludes fuel path walk = walk := by
  cases fuel with
  | zero => rfl
  | succ fuel => simp only [walkDirectory_succ, nowhere]

include plain in
/-- A path without links that is too long to be opened is not followed. -/
theorem realPath?_of_not_openable (proper : Path.AllProper directory)
    (closed : ¬ FileSystem.Openable (pathOf directory)) :
    fs.realPath? (pathOf directory) = none := by
  rw [Option.eq_none_iff_forall_ne_some]
  intro real found
  obtain ⟨led, resolved, -⟩ := FileSystem.realPath?_eq_some.mp found
  have openable := FileSystem.openable_of_resolve resolved
  rw [FileSystem.eq_of_resolve_pathOf plain proper resolved] at openable
  exact closed openable

variable (pattern : String) (excludes : List String)

include plain formed in
/-- One entry adds its files, if the walk through directories below does so. -/
theorem adds_visit {fuel : Nat} {walk : Walk} {item : FileSystem.Listed} (leads : Leads fs path directory)
    (listed : item ∈ fs.tree.listing directory) (clear : walk.Clear (item.name :: directory))
    (below : ∀ {path inner}, Leads fs path inner → walk.Clear inner →
      walk.Adds (walkDirectory fs pattern excludes fuel path walk) inner
      (filesFrom fs.tree pattern excludes fuel inner)) :
    walk.Adds (visit fs pattern excludes fuel path walk item) (item.name :: directory)
      (filesAt pattern excludes (filesFrom fs.tree pattern excludes fuel) directory item) := by
  obtain ⟨name, entry⟩ := item
  have held : fs.tree.entry? (name :: directory) = some entry := FileTree.mem_listing.mp listed
  have child : Path.join [path, name] = pathOf (name :: directory) := leads.join plain (formed.usable held).toProper
  cases entry with
  | link target => exact absurd held (plain.entry?_ne_link _ _)
  | directory =>
    simp only [visit, child, leadsToDirectory?, filesAt]
    by_cases passed : (Text.startsWith name "." || isExcluded (pathOf (name :: directory)) excludes) = true
    · have closed : ¬ Entered excludes (name :: directory) := by
        rintro ⟨shown, kept⟩
        rw [List.headD_cons] at shown
        simp [shown, kept] at passed
      rw [if_pos passed, if_neg fun entered => closed entered.1]
      exact .nothing walk _
    · rw [if_neg passed]
      simp only [Bool.or_eq_true, not_or, Bool.not_eq_true] at passed
      by_cases openable : FileSystem.Openable (pathOf (name :: directory))
      · rw [if_pos ⟨passed, openable⟩]
        exact below (leads_of_openable plain formed held openable) clear
      · -- A directory that is too far down to be opened is passed by.
        rw [walkDirectory_nowhere (realPath?_of_not_openable plain (formed.proper held) openable),
          if_neg fun entered => openable entered.2]
        exact .nothing walk _
  | file content =>
    simp only [visit, child, leadsToDirectory?, filesAt]
    split
    · exact ⟨rfl, fun _ mem => .inl mem⟩
    · exact .nothing walk _

include plain formed in
theorem adds_foldl_visit {fuel : Nat} {items : List FileSystem.Listed} {walk : Walk} (leads : Leads fs path directory)
    (listed : ∀ item ∈ items, item ∈ fs.tree.listing directory)
    (increasing : items.Pairwise fun item other => Text.Utf8.Precedes item.name other.name)
    (clear : ∀ item ∈ items, walk.Clear (item.name :: directory))
    (below : ∀ {path inner} {walk : Walk}, Leads fs path inner → walk.Clear inner →
      walk.Adds (walkDirectory fs pattern excludes fuel path walk) inner
      (filesFrom fs.tree pattern excludes fuel inner)) :
    walk.Adds (items.foldl (visit fs pattern excludes fuel path) walk) directory
      (items.flatMap (filesAt pattern excludes (filesFrom fs.tree pattern excludes fuel) directory)) := by
  induction items generalizing walk with
  | nil => exact .nothing walk directory
  | cons item rest ih =>
    obtain ⟨item_listed, rest_listed⟩ := List.forall_mem_cons.mp listed
    obtain ⟨item_clear, rest_clear⟩ := List.forall_mem_cons.mp clear
    obtain ⟨before, rest_increasing⟩ := List.pairwise_cons.mp increasing
    have first := adds_visit plain formed pattern excludes leads item_listed item_clear below
    have still_clear : ∀ other ∈ rest,
        (visit fs pattern excludes fuel path walk item).Clear (other.name :: directory) := by
      intro other mem
      exact first.clear (before other mem).ne (rest_clear other mem)
    rw [List.foldl_cons, List.flatMap_cons]
    exact (first.outward (List.suffix_cons _ _)).trans (ih rest_listed rest_increasing still_clear)

include plain formed in
/-- A walk through a directory that has not been visited yet adds the files found there. -/
theorem adds_walkDirectory {fuel : Nat} {walk : Walk} (leads : Leads fs path directory) (clear : walk.Clear directory) :
    walk.Adds (walkDirectory fs pattern excludes fuel path walk) directory
      (filesFrom fs.tree pattern excludes fuel directory) := by
  induction fuel generalizing path directory walk with
  | zero => exact .nothing walk directory
  | succ fuel ih =>
    have proper : Path.AllProper directory := formed.proper leads.is_directory
    have new : ¬ walk.visited.contains (pathOf directory) = true := by
      rw [List.contains_iff_mem]
      exact clear directory List.suffix_rfl proper
    simp only [walkDirectory_succ, leads.realPath? plain, leads.list?, new, Bool.false_eq_true, if_false]
    -- The directory itself counts as visited from here on, which hides nothing that is in it.
    have arrived : walk.Adds { walk with visited := pathOf directory :: walk.visited } directory [] := by
      refine ⟨by simp, fun other mem => ?_⟩
      rcases List.mem_cons.mp mem with rfl | before
      · exact .inr ⟨directory, List.suffix_rfl, proper, rfl⟩
      · exact .inl before
    have inside_clear : ∀ item ∈ fs.tree.listing directory,
        Walk.Clear { walk with visited := pathOf directory :: walk.visited } (item.name :: directory) := by
      intro item _ location below proper_location mem
      rcases List.mem_cons.mp mem with same | before
      · have outside := Walk.pathOf_injective proper_location proper same
        have long := below.length_le
        rw [outside, List.length_cons] at long
        omega
      · exact clear location ((List.suffix_cons _ _).trans below) proper_location before
    exact arrived.trans (adds_foldl_visit plain formed pattern excludes leads (fun _ mem => mem)
      (fs.tree.increasing_listing directory) inside_clear ih)

theorem isAbs_base {pattern : String} (rooted : Path.isAbs pattern = true) : Path.isAbs (Glob.base pattern) = true := by
  rw [Path.isAbs, beq_iff_eq, List.head?_eq_some_iff] at rooted
  obtain ⟨rest, chars⟩ := rooted
  have first : Glob.lastPlainSeparator none 0 pattern.toList = Glob.lastPlainSeparator (some 0) 1 rest := by
    rw [chars]
    exact Glob.lastPlainSeparator_separator none 0 rest
  obtain ⟨place, last, -⟩ : ∃ place, Glob.lastPlainSeparator (some 0) 1 rest = some place ∧ _ :=
    Glob.lastPlainSeparator_some 1 rest
  unfold Glob.base
  rewrite [first, last]
  cases place with
  | zero => exact (by decide : Path.isAbs "/" = true)
  | succ place =>
    simp only [chars, List.take_succ_cons, Glob.unescape_cons (show '/' ≠ '\\' by decide)]
    simp [Path.isAbs]

theorem isAbs_widen {pattern : String} (rooted : Path.isAbs pattern = true) : Path.isAbs (widen pattern) = true := by
  unfold widen
  split
  · exact Path.isAbs_append rooted _
  · exact rooted

include plain formed in
/-- The walk for a pattern whose base is a directory. -/
theorem walkPattern_of_leads (leads : Leads fs (Glob.base (widen pattern)) directory) :
    walkPattern fs pattern excludes =
      (filesFrom fs.tree (widen pattern) excludes (fs.tree.directories.length + 1) directory).map pathOf := by
  have nothing_yet : Walk.Clear {} directory := fun _ _ _ mem => List.not_mem_nil mem
  have walked : Walk.Adds {} (walkDirectory fs (widen pattern) excludes (fs.tree.directories.length + 1) _ {}) _ _ :=
    adds_walkDirectory plain formed (widen pattern) excludes leads nothing_yet
  rw [walkPattern, sightings, walked.sightings]
  have files_only : Sighting.file? ∘ (fun file => Sighting.file (pathOf file)) = some ∘ pathOf := rfl
  rw [List.nil_append, List.filterMap_map, files_only, List.filterMap_eq_map]

include plain in
theorem leads_of_isDirectory (rooted : Path.isAbs path = true) (at_directory : fs.isDirectory path = true) :
    Leads fs path (Path.components path).reverse := by
  unfold FileSystem.isDirectory FileSystem.stat at at_directory
  cases found : fs.locate FileSystem.maxLinks path with
  | error problem => simp [found] at at_directory
  | ok location =>
    have spelled := FileSystem.eq_components_of_locate plain rooted found
    refine ⟨rooted, fun links => ?_, ?_⟩
    · rw [FileSystem.locate_links plain links FileSystem.maxLinks, found, spelled]
    · rw [← spelled]
      cases held : fs.tree.entry? location with
      | none => simp [found, held] at at_directory
      | some entry => cases entry <;> simp [found, held] at at_directory ⊢

theorem list?_of_isDirectory (apart : fs.isDirectory path = false) : fs.list? path = none := by
  unfold FileSystem.isDirectory FileSystem.stat at apart
  unfold FileSystem.list?
  cases found : fs.locate FileSystem.maxLinks path with
  | error problem => rfl
  | ok location =>
    have elsewhere : fs.tree.entry? location ≠ some .directory := by
      intro held
      simp [found, held] at apart
    exact if_neg elsewhere

theorem walkPattern_nowhere (apart : fs.isDirectory (Glob.base (widen pattern)) = false) :
    walkPattern fs pattern excludes = [] := by
  rw [walkPattern, sightings, walkDirectory_succ]
  cases fs.realPath? (Glob.base (widen pattern)) with
  | none => rfl
  | some real => simp [list?_of_isDirectory apart]

include plain formed in
theorem mem_walkPattern (rooted : Path.isAbs pattern = true) {f : String} :
    f ∈ walkPattern fs pattern excludes ↔
      fs.isDirectory (Glob.base (widen pattern)) = true ∧ ∃ file, f = pathOf file ∧
      FileSystem.Openable (pathOf file.tail) ∧
        Finds fs.tree (widen pattern) excludes (Path.components (Glob.base (widen pattern))).reverse file := by
  cases at_directory : fs.isDirectory (Glob.base (widen pattern)) with
  | false => simp [walkPattern_nowhere pattern excludes at_directory]
  | true =>
    have leads := leads_of_isDirectory plain (isAbs_base (isAbs_widen rooted)) at_directory
    rw [walkPattern_of_leads plain formed pattern excludes leads, List.mem_map]
    constructor
    · rintro ⟨file, mem, rfl⟩
      obtain ⟨finds, above⟩ := finds_of_mem_filesFrom (leads.openable plain) mem
      exact ⟨rfl, file, rfl, above, finds⟩
    · rintro ⟨-, file, rfl, above, finds⟩
      have enough := height_le fs.tree (Path.components (Glob.base (widen pattern))).reverse
      exact ⟨file, mem_filesFrom_of_finds formed leads.is_directory (by omega) finds above, rfl⟩

include plain formed in
theorem increasing_walkPattern (rooted : Path.isAbs pattern = true) :
    (walkPattern fs pattern excludes).Pairwise fun f g => InFront (Path.components f) (Path.components g) := by
  cases at_directory : fs.isDirectory (Glob.base (widen pattern)) with
  | false => simp [walkPattern_nowhere pattern excludes at_directory]
  | true =>
    have leads := leads_of_isDirectory plain (isAbs_base (isAbs_widen rooted)) at_directory
    rw [walkPattern_of_leads plain formed pattern excludes leads, List.pairwise_map]
    refine (increasing_filesFrom _ _).imp_of_mem ?_
    intro file file' mem mem' less
    have openable := leads.openable plain
    rwa [(finds_of_mem_filesFrom openable mem).1.components_pathOf formed,
      (finds_of_mem_filesFrom openable mem').1.components_pathOf formed]

end

/-- A walk finds what is to be found in directories that the system can open by their paths, each file once
and in order: one name comes before another as in its directory, and all that a directory holds stands
together. -/
theorem walkPattern_finds_in_order {fs : FileSystem} (plain : fs.tree.WithoutLinks) (formed : fs.tree.WellFormed)
    {pattern : String} (rooted : Path.isAbs pattern = true) (excludes : List String) :
    (∀ f, f ∈ walkPattern fs pattern excludes ↔
      fs.isDirectory (Glob.base (widen pattern)) = true ∧ ∃ file, f = pathOf file ∧
      FileSystem.Openable (pathOf file.tail) ∧
        Finds fs.tree (widen pattern) excludes (Path.components (Glob.base (widen pattern))).reverse file) ∧
    (walkPattern fs pattern excludes).Nodup ∧
    (walkPattern fs pattern excludes).Pairwise (fun f g => InFront (Path.components f) (Path.components g)) ∧
    (fs.isDirectory (Glob.base (widen pattern)) = false → walkPattern fs pattern excludes = []) := by
  have increasing := increasing_walkPattern plain formed pattern excludes rooted
  refine ⟨fun f => mem_walkPattern plain formed pattern excludes rooted, ?_, increasing,
    walkPattern_nowhere pattern excludes⟩
  refine increasing.imp ?_
  rintro f _ before rfl
  exact InFront.irrefl _ before

/-- A script two directories down, and one more in a hidden directory. -/
def nested : FileSystem where
  tree := ⟨[(["k"], .directory), (["src", "k"], .directory), (["in", "src", "k"], .directory),
    ([".git", "src", "k"], .directory), (["b.tsx", "in", "src", "k"], .file []),
    (["c.ts", ".git", "src", "k"], .file [])]⟩
  cwd := "/k"
  rooted := by decide

theorem walkPattern_nested :
    nested.tree.WithoutLinks ∧ nested.tree.WellFormed ∧ Path.isAbs "/k/src" = true ∧
    "/k/src/in/b.tsx" ∈ walkPattern nested "/k/src" ["/k/out"] ∧
    "/k/src/.git/c.ts" ∉ walkPattern nested "/k/src" ["/k/out"] := by
  have plain : nested.tree.WithoutLinks := by decide +kernel
  have formed : nested.tree.WellFormed := by decide +kernel
  have rooted : Path.isAbs "/k/src" = true := by decide
  have base : (Path.components (Glob.base (widen "/k/src"))).reverse = ["src", "k"] := by decide +kernel
  obtain ⟨found, -⟩ := walkPattern_finds_in_order plain formed rooted ["/k/out"]
  rw [base] at found
  refine ⟨plain, formed, rooted, ?_, ?_⟩
  · refine (found _).mpr ⟨by decide +kernel, ["b.tsx", "in", "src", "k"], by decide +kernel, by decide +kernel, ?_⟩
    refine ⟨by decide, ⟨[], by decide⟩, ?_, by decide +kernel⟩
    intro between above apart part differs
    have only : between = ["in", "src", "k"] := by
      have inner := (List.suffix_cons_iff.mp part).resolve_left differs
      refine (List.suffix_cons_iff.mp inner).resolve_right fun further => apart ?_
      exact further.eq_of_length (Nat.le_antisymm further.length_le above.length_le)
    rw [only]
    decide +kernel
  · intro mem
    obtain ⟨-, file, same, -, finds⟩ := (found _).mp mem
    have spelled := finds.components_pathOf formed
    rw [← same] at spelled
    have file_eq : file = ["c.ts", ".git", "src", "k"] := by
      rw [← List.reverse_reverse file, ← spelled]
      decide +kernel
    subst file_eq
    have hidden : ¬ Entered ["/k/out"] [".git", "src", "k"] := by decide +kernel
    exact hidden (finds.entered _ (by decide) (by decide) (by decide) (by decide))

end ScriptLoader.Project
