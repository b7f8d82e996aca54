import ScriptLoader.Proofs.Glob.Literal
import ScriptLoader.Proofs.LinkFreePaths

/-!
A file tree put into a directory. What a path inside the directory leads to is what the tree has there,
whichever directory it is: the directory shows only as the beginning of the paths.
-/

set_option autoImplicit false
namespace ScriptLoader

theorem Path.Proper.append_json {name : String} (proper : Proper name) : Proper (name ++ ".json") := by
  have letter : 'j' ∈ (name ++ ".json").toList := by simp
  have other : ∀ text : String, 'j' ∉ text.toList → name ++ ".json" ≠ text :=
    fun text absent same => absent (same ▸ letter)
  refine ⟨other "" (by decide), other "." (by decide), other ".." (by decide), ?_⟩
  simp [proper.no_slash]

namespace FileTree

/-! ## The texts of paths -/

/-- The text that leads from a directory down to a location below it. -/
def trail : Location → String
  | [] => ""
  | name :: above => trail above ++ "/" ++ name

theorem trail_append (inner outer : Location) : trail (inner ++ outer) = trail outer ++ trail inner := by
  induction inner with
  | nil => simp [trail]
  | cons name above ih => simp [trail, ih, String.append_assoc]

theorem pathOf_cons (name : String) (above : Location) : pathOf (name :: above) = trail (name :: above) := by
  induction above generalizing name with
  | nil => simp [pathOf, Path.ofComponents, trail]
  | cons next above ih =>
    have whole : pathOf (name :: next :: above) = pathOf (next :: above) ++ "/" ++ name := by
      have names : (name :: next :: above).reverse = (next :: above).reverse ++ [name] := List.reverse_cons
      have some_name : (next :: above).reverse ≠ [] := by simp
      rw [pathOf, pathOf, names, Path.ofComponents, Path.ofComponents, if_pos rfl, if_pos rfl,
        String.intercalate_append_of_ne_nil some_name (List.cons_ne_nil _ _), String.intercalate_singleton]
      simp only [String.append_assoc]
    rw [whole, ih]
    rfl

/-- The path of a location of a tree, once the tree stands in a directory. -/
def pathIn (dir location : Location) : String := pathOf (location ++ dir)

theorem pathIn_eq {dir : Location} (below_root : dir ≠ []) (location : Location) :
    pathIn dir location = trail dir ++ trail location := by
  rw [← trail_append, pathIn]
  obtain ⟨name, above, whole⟩ : ∃ name above, location ++ dir = name :: above :=
    List.exists_cons_of_ne_nil (by simp [below_root])
  rw [whole, pathOf_cons]

/-! ## Ways down -/

def enter? (here : Location) (name : String) : Option Location :=
  if name = "" ∨ name = "." then some here
  else if name = ".." then
    match here with
    | [] => none
    | _ :: above => some above
  else some (name :: here)

/-- Goes on by names from a location, unless they lead above the top. -/
def descend? (here : Location) (names : List String) : Option Location := names.foldlM enter? here

theorem of_enter? {here next : Location} {name : String} (proper : Path.AllProper here)
    (no_slash : '/' ∉ name.toList) (entered : enter? here name = some next) :
    Path.AllProper next ∧ ∀ dir, Path.push true (here ++ dir) name = next ++ dir := by
  unfold enter? at entered
  split at entered
  · rename_i nothing
    cases entered
    exact ⟨proper, fun dir => if_pos nothing⟩
  · rename_i something
    split at entered
    · rename_i up
      split at entered
      · cases entered
      · cases entered
        obtain ⟨proper_last, proper_above⟩ := List.forall_mem_cons.mp proper
        exact ⟨proper_above, fun dir => by simp [Path.push, up, proper_last.not_up]⟩
    · rename_i deeper
      cases entered
      have proper_name : Path.Proper name :=
        ⟨fun same => something (.inl same), fun same => something (.inr same), deeper, no_slash⟩
      exact ⟨List.forall_mem_cons.mpr ⟨proper_name, proper⟩, fun dir => proper_name.push true _⟩

theorem of_descend? {here location : Location} {names : List String} (proper : Path.AllProper here)
    (no_slash : ∀ name ∈ names, '/' ∉ name.toList) (down : descend? here names = some location) :
    Path.AllProper location ∧
      ∀ dir, names.foldl (Path.push true) (here ++ dir) = location ++ dir := by
  induction names generalizing here with
  | nil =>
    cases down
    exact ⟨proper, fun dir => rfl⟩
  | cons name rest ih =>
    obtain ⟨clear, clear_rest⟩ := List.forall_mem_cons.mp no_slash
    rw [descend?, List.foldlM_cons] at down
    obtain ⟨next, entered, down⟩ := Option.bind_eq_some_iff.mp down
    obtain ⟨proper_next, pushed⟩ := of_enter? proper clear entered
    obtain ⟨proper_location, led⟩ := ih proper_next clear_rest down
    exact ⟨proper_location, fun dir => by rw [List.foldl_cons, pushed dir, led dir]⟩

section
variable {dir location : Location} (proper_dir : Path.AllProper dir) (proper : Path.AllProper location)
include proper_dir proper

theorem proper_reverse_append : Path.AllProper ((location ++ dir).reverse) := by
  intro name mem
  rcases List.mem_append.mp (List.mem_reverse.mp mem) with mem | mem
  · exact proper name mem
  · exact proper_dir name mem

theorem join_pathIn {text : String} {target : Location}
    (down : descend? location (Text.pieces text '/') = some target) :
    Path.join [pathIn dir location, text] = pathIn dir target := by
  have no_slash : ∀ name ∈ Text.pieces text '/', '/' ∉ name.toList := fun _ mem => Text.not_mem_of_mem_pieces mem
  rw [pathIn, pathOf, Path.join_eq (Path.isAbs_ofComponents _),
    Path.components_ofComponents (proper_reverse_append proper_dir proper),
    List.reverse_reverse, (of_descend? proper no_slash down).2]
  rfl

theorem clean_pathIn : Path.clean (pathIn dir location) = pathIn dir location :=
  Path.clean_ofComponents (proper_reverse_append proper_dir proper)

end

theorem isAbs_pathIn (dir location : Location) : Path.isAbs (pathIn dir location) = true := Path.isAbs_ofComponents _

theorem dir_pathIn {dir above : Location} {name : String} (proper_dir : Path.AllProper dir)
    (proper : Path.AllProper (name :: above)) : Path.dir (pathIn dir (name :: above)) = pathIn dir above := by
  have all := proper_reverse_append proper_dir proper
  rw [List.cons_append, List.reverse_cons] at all
  rw [pathIn, pathOf, List.cons_append, List.reverse_cons, Path.dir_ofComponents all]
  rfl

theorem pathIn_injective {dir location other : Location} (proper_dir : Path.AllProper dir)
    (proper : Path.AllProper location) (proper' : Path.AllProper other)
    (same : pathIn dir location = pathIn dir other) : location = other := by
  have names := Path.ofComponents_injective (proper_reverse_append proper_dir proper)
    (proper_reverse_append proper_dir proper') same
  exact List.append_cancel_right (List.reverse_inj.mp names)

/-! ## The tree in its directory -/

def placed (tree : FileTree) (dir : Location) : FileTree :=
  ⟨((Path.tails dir).filter (· ≠ [])).map (fun above => (above, Entry.directory)) ++
    tree.entries.map fun held => (held.1 ++ dir, held.2)⟩

section
variable {α β γ : Type} [BEq α] [LawfulBEq α] [BEq γ] [LawfulBEq γ]

theorem lookup_map_const {keys : List α} {key : α} (mem : key ∈ keys) (value : β) :
    (keys.map fun held => (held, value)).lookup key = some value := by
  induction keys with
  | nil => cases mem
  | cons first rest ih =>
    rw [List.map_cons, List.lookup_cons]
    split
    · rfl
    · rename_i differs
      rcases List.mem_cons.mp mem with same | mem
      · simp [same] at differs
      · exact ih mem

theorem lookup_map_const_eq_none {keys : List α} {key : α} (absent : key ∉ keys) (value : β) :
    (keys.map fun held => (held, value)).lookup key = none := by
  rw [List.lookup_eq_none_iff]
  intro item mem
  obtain ⟨held, listed, rfl⟩ := List.mem_map.mp mem
  simpa using fun same : key = held => absent (same ▸ listed)

theorem lookup_map_key {f : α → γ} (injective : Function.Injective f) (held : List (α × β)) (key : α) :
    (held.map fun item => (f item.1, item.2)).lookup (f key) = held.lookup key := by
  induction held with
  | nil => rfl
  | cons item rest ih =>
    have same : (f key == f item.1) = (key == item.1) := by
      rw [Bool.eq_iff_iff, beq_iff_eq, beq_iff_eq]
      exact injective.eq_iff
    rw [List.map_cons, List.lookup_cons, same, ih]
    cases item
    rw [List.lookup_cons]

end

section
variable {tree : FileTree} {dir : Location}

theorem entry?_placed_dir {above : Location} (part : above <:+ dir) :
    FileTree.entry? (tree.placed dir) above = some .directory := by
  cases above with
  | nil => rfl
  | cons name above =>
    have listed : (name :: above) ∈ (Path.tails dir).filter (· ≠ []) := by
      rw [List.mem_filter, Path.tails_eq, List.mem_tails]
      exact ⟨part, by simp⟩
    rw [FileTree.entry?, placed, List.lookup_append, lookup_map_const listed]
    · rfl
    · simp

theorem entry?_placed (location : Location) :
    FileTree.entry? (tree.placed dir) (location ++ dir) = tree.entry? location := by
  cases location with
  | nil => exact entry?_placed_dir List.suffix_rfl
  | cons name above =>
    have outside : (name :: above) ++ dir ∉ (Path.tails dir).filter (· ≠ []) := by
      intro listed
      rw [List.mem_filter, Path.tails_eq, List.mem_tails] at listed
      have long := listed.1.length_le
      simp only [List.length_append, List.length_cons] at long
      omega
    have injective : Function.Injective fun location : Location => location ++ dir :=
      fun _ _ same => List.append_cancel_right same
    rw [FileTree.entry?, placed, List.lookup_append, lookup_map_const_eq_none outside, Option.none_or]
    · exact lookup_map_key injective tree.entries (name :: above)
    · simp

theorem entry?_placed_outside {location : Location} (short : location.length ≤ dir.length)
    (beside : ¬ location <:+ dir) :
    FileTree.entry? (tree.placed dir) location = none := by
  cases location with
  | nil => exact absurd (List.nil_suffix) beside
  | cons name above =>
    have outside : name :: above ∉ (Path.tails dir).filter (· ≠ []) := by
      rw [List.mem_filter, Path.tails_eq, List.mem_tails]
      exact fun listed => beside listed.1
    rw [FileTree.entry?, placed, List.lookup_append, lookup_map_const_eq_none outside, Option.none_or,
      List.lookup_eq_none_iff]
    · intro item mem
      obtain ⟨held, -, rfl⟩ := List.mem_map.mp mem
      have differs : name :: above ≠ held.1 ++ dir := by
        intro same
        have size := congrArg List.length same
        rw [List.length_append] at size
        have top : held.1 = [] := List.length_eq_zero_iff.mp (by omega)
        rw [top, List.nil_append] at same
        exact beside (same ▸ List.suffix_rfl)
      simpa using differs
    · simp

theorem withoutLinks_placed (plain : tree.WithoutLinks) (dir : Location) : (tree.placed dir).WithoutLinks := by
  intro held mem
  rcases List.mem_append.mp mem with mem | mem
  · obtain ⟨above, -, rfl⟩ := List.mem_map.mp mem
    rfl
  · obtain ⟨own, listed, rfl⟩ := List.mem_map.mp mem
    exact plain own listed

theorem walkable_placed_dir (usable : ∀ name ∈ dir, Usable name) : Walkable (tree.placed dir) dir := by
  have all : ∀ above, above <:+ dir → Walkable (tree.placed dir) above := by
    intro above
    induction above with
    | nil => exact fun _ => .root
    | cons name above ih =>
      intro part
      exact .down (ih ((List.suffix_cons name above).trans part)) (usable name (part.subset List.mem_cons_self))
        (entry?_placed_dir part)
  exact all dir List.suffix_rfl

theorem walkable_placed (usable : ∀ name ∈ dir, Usable name) {location : Location} :
    Walkable (tree.placed dir) (location ++ dir) ↔ Walkable tree location := by
  induction location with
  | nil => exact ⟨fun _ => .root, fun _ => walkable_placed_dir usable⟩
  | cons name above ih =>
    constructor
    · intro walkable
      cases walkable with
      | down walkable_above usable_name directory =>
        exact .down (ih.mp walkable_above) usable_name (entry?_placed (name :: above) ▸ directory)
    · intro walkable
      cases walkable with
      | down walkable_above usable_name directory =>
        exact .down (ih.mpr walkable_above) usable_name ((entry?_placed (name :: above)).trans directory)

theorem reached_placed (usable : ∀ name ∈ dir, Usable name) {location : Location} :
    Reached (tree.placed dir) (location ++ dir) ↔ Reached tree location := by
  constructor
  · intro reached
    cases location with
    | nil => exact .directory .root
    | cons name above =>
      cases reached with
      | directory walkable => exact .directory ((walkable_placed usable).mp walkable)
      | file walkable usable_name file =>
        exact .file ((walkable_placed usable).mp walkable) usable_name ((entry?_placed (name :: above)).symm.trans file)
  · intro reached
    cases reached with
    | directory walkable => exact .directory ((walkable_placed usable).mpr walkable)
    | file walkable usable_name file =>
      exact .file ((walkable_placed usable).mpr walkable) usable_name ((entry?_placed _).trans file)

def nameIn? (directory : Location) (held : Location × Entry) : Option String :=
  match held.1 with
  | name :: parent => if parent = directory then some name else none
  | [] => none

theorem nameIn?_of_length_le {directory : Location} {held : Location × Entry}
    (short : held.1.length ≤ directory.length) :
    nameIn? directory held = none := by
  unfold nameIn?
  split
  · rename_i name parent whole
    rw [whole, List.length_cons] at short
    rw [if_neg]
    rintro rfl
    omega
  · rfl

theorem nameIn?_append (location : Location) (held : Location × Entry) :
    nameIn? (location ++ dir) (held.1 ++ dir, held.2) = nameIn? location held := by
  obtain ⟨own, entry⟩ := held
  cases own with
  | nil => exact nameIn?_of_length_le (by simp)
  | cons name parent => simp [nameIn?]

theorem names_eq (tree : FileTree) (directory : Location) :
    tree.names directory = Text.Utf8.inOrder (tree.entries.filterMap (nameIn? directory)) := rfl

def WellNamed (tree : FileTree) : Prop := ∀ held ∈ tree.entries, ∀ name ∈ held.1, Usable name

instance (tree : FileTree) : Decidable tree.WellNamed := inferInstanceAs (Decidable (∀ held ∈ tree.entries, _))

theorem WellNamed.of_mem_names (named : tree.WellNamed) {directory : Location} {name : String}
    (mem : name ∈ tree.names directory) : Usable name := by
  rw [names_eq, Text.Utf8.mem_inOrder, List.mem_filterMap] at mem
  obtain ⟨⟨location, entry⟩, listed, same⟩ := mem
  cases location with
  | nil => cases same
  | cons first above =>
    simp only [nameIn?, Option.ite_none_right_eq_some, Option.some.injEq] at same
    exact named _ listed name (same.2 ▸ List.mem_cons_self)

def listing (tree : FileTree) (directory : Location) : List FileSystem.Listed :=
  (tree.names directory).filterMap fun name => (tree.entry? (name :: directory)).map fun entry => ⟨name, entry⟩

theorem of_mem_listing {directory : Location} {item : FileSystem.Listed} (mem : item ∈ tree.listing directory) :
    item.name ∈ tree.names directory ∧ tree.entry? (item.name :: directory) = some item.entry := by
  obtain ⟨name, listed, found⟩ := List.mem_filterMap.mp mem
  obtain ⟨entry, held, rfl⟩ := Option.map_eq_some_iff.mp found
  exact ⟨listed, held⟩

theorem names_placed (location : Location) : (tree.placed dir).names (location ++ dir) = tree.names location := by
  -- The directories that lead to the tree are too far up to be in one of its own.
  have outside : (((Path.tails dir).filter (· ≠ [])).map (fun above => (above, Entry.directory))).filterMap
      (nameIn? (location ++ dir)) = [] := by
    rw [List.filterMap_eq_nil_iff]
    intro held mem
    obtain ⟨above, listed, rfl⟩ := List.mem_map.mp mem
    rw [List.mem_filter, Path.tails_eq, List.mem_tails] at listed
    apply nameIn?_of_length_le
    have long := listed.1.length_le
    simp only [List.length_append]
    omega
  rw [names_eq, names_eq, placed, List.filterMap_append, outside, List.nil_append, List.filterMap_map]
  congr 2
  funext held
  exact nameIn?_append location held

theorem length_directories (tree : FileTree) :
    tree.directories.length = tree.entries.countP (fun held => decide (held.2 = .directory)) + 1 := by
  rw [directories, List.length_cons, List.length_filterMap_eq_countP]
  congr 2
  funext held
  by_cases directory : held.2 = .directory <;> simp [directory]

theorem length_directories_placed : tree.directories.length ≤ (tree.placed dir).directories.length := by
  have kept : (tree.entries.map fun held => (held.1 ++ dir, held.2)).countP (fun held => decide (held.2 = .directory)) =
      tree.entries.countP (fun held => decide (held.2 = .directory)) := List.countP_map
  rw [length_directories, length_directories, placed, List.countP_append, kept]
  omega

end

/-- In a tree without links, names that stand for themselves lead nowhere but to the location they spell. -/
theorem eq_of_followNames {tree : FileTree} (plain : tree.WithoutLinks)
    {jump : Location → List String → Except FileProblem Location} {here location : Location} {names : List String}
    (proper : Path.AllProper names) (found : tree.followNames jump here names = .ok location) :
    location = names.reverse ++ here := by
  induction names generalizing here with
  | nil =>
    cases found
    rfl
  | cons name rest ih =>
    obtain ⟨proper_name, proper_rest⟩ := List.forall_mem_cons.mp proper
    have something : ¬ (name = "" ∨ name = ".") := by simp [proper_name.some_text, proper_name.not_here]
    rw [followNames, if_neg something, if_neg proper_name.not_up] at found
    split at found
    · cases found
    · split at found
      · cases found
      · rw [ih proper_rest found]
        simp
      · split at found
        · rename_i at_end
          cases found
          rw [List.isEmpty_iff.mp at_end]
          rfl
        · cases found
      · rename_i target link
        exact absurd link (plain.entry?_ne_link _ _)

end FileTree

namespace FileSystem
variable {fs : FileSystem} {location found : Location}

theorem eq_of_follow_pathOf (plain : fs.tree.WithoutLinks) (proper : Path.AllProper location) {links : Nat}
    (followed : fs.tree.follow links [] (Text.pieces (FileTree.pathOf location) '/') = .ok found) :
    found = location := by
  have proper_names : Path.AllProper location.reverse := fun name mem => proper name (List.mem_reverse.mp mem)
  obtain ⟨jump, same⟩ := fs.tree.follow_eq_followNames links
  rw [same] at followed
  by_cases at_root : location = []
  · -- There is no name in the path of the root, only the empty texts around its separator.
    subst at_root
    have pieces_root : Text.pieces (FileTree.pathOf []) '/' = ["", ""] := by decide
    rw [pieces_root] at followed
    cases followed
    rfl
  · rw [FileTree.pathOf, Path.pieces_ofComponents proper_names (by simpa using at_root)] at followed
    have spelled := FileTree.eq_of_followNames plain proper_names followed
    simpa using spelled

theorem locate_pathOf (plain : fs.tree.WithoutLinks) (proper : Path.AllProper location) (links : Nat) :
    fs.locate links (FileTree.pathOf location) = .ok found ↔
      found = location ∧ FileTree.Reached fs.tree location ∧ Openable (FileTree.pathOf location) := by
  have rooted : Path.isAbs (FileTree.pathOf location) = true := Path.isAbs_ofComponents _
  constructor
  · intro led
    have openable : Openable (FileTree.pathOf location) := by
      by_contra closed
      obtain ⟨problem, failed⟩ := locate_of_not_openable closed links
      rw [failed] at led
      cases led
    have reached := reached_of_locate rooted led
    have there : found = location := eq_of_follow_pathOf plain proper (follow_of_locate rooted led)
    exact ⟨there, there ▸ reached, openable⟩
  · rintro ⟨rfl, reached, openable⟩
    rw [locate_of_openable rooted openable, reached.follow]

theorem eq_of_resolve_pathOf (plain : fs.tree.WithoutLinks) (proper : Path.AllProper location)
    (resolved : fs.resolve (FileTree.pathOf location) = .ok found) : found = location := by
  have rooted : Path.isAbs (FileTree.pathOf location) = true := Path.isAbs_ofComponents _
  have followed := follow_of_resolve resolved
  rw [namesOf_of_isAbs rooted] at followed
  exact eq_of_follow_pathOf plain proper followed

end FileSystem

/-! ## Seen through a file system -/

open FileTree (pathIn pathOf)

/-- A file system that holds a tree in a directory other than the root, and nothing around it. The names of
the directory can be looked up and stand for themselves in patterns, and every path of the tree can be opened.
-/
structure Holds (tree : FileTree) (dir : Location) (fs : FileSystem) : Prop where
  placed : fs.tree = tree.placed dir
  below_root : dir ≠ []
  usable : ∀ name ∈ dir, FileTree.Usable name
  literal : ∀ name ∈ dir, ∀ c ∈ name.toList, Glob.isLiteral c = true
  openable : ∀ location ∈ [] :: tree.entries.map Prod.fst, FileSystem.Openable (pathIn dir location)

namespace Holds
variable {tree : FileTree} {dir : Location} {fs : FileSystem} (holds : Holds tree dir fs)
include holds

theorem proper : Path.AllProper dir := fun name mem => (holds.usable name mem).toProper

theorem openable_of_reached {location : Location} (reached : FileTree.Reached tree location) :
    FileSystem.Openable (pathIn dir location) := by
  apply holds.openable
  cases location with
  | nil => exact List.mem_cons_self
  | cons name above =>
    obtain ⟨entry, found⟩ : ∃ entry, tree.entry? (name :: above) = some entry := by
      cases reached with
      | directory walkable => exact ⟨_, walkable.entry?⟩
      | file _ _ file => exact ⟨_, file⟩
    obtain ⟨before, after, entries, -⟩ := List.lookup_eq_some_iff.mp found
    have listed : (name :: above, entry) ∈ tree.entries := by simp [entries]
    exact List.mem_cons_of_mem _ (List.mem_map_of_mem listed)

theorem abs_pathIn {location : Location} (proper : Path.AllProper location) :
    fs.abs (pathIn dir location) = pathIn dir location := by
  rw [FileSystem.abs, Path.abs, if_pos (FileTree.isAbs_pathIn _ _), FileTree.clean_pathIn holds.proper proper]

section
variable (plain : tree.WithoutLinks) {location : Location} (proper : Path.AllProper location)
include plain proper

theorem locate_pathIn {links : Nat} {found : Location} :
    fs.locate links (pathIn dir location) = .ok found ↔ found = location ++ dir ∧ FileTree.Reached tree location := by
  have all : Path.AllProper (location ++ dir) := by
    intro name mem
    exact (List.mem_append.mp mem).elim (proper name) (holds.proper name)
  have plain_fs : fs.tree.WithoutLinks := holds.placed ▸ FileTree.withoutLinks_placed plain dir
  rw [pathIn, FileSystem.locate_pathOf plain_fs all, holds.placed, FileTree.reached_placed holds.usable]
  exact and_congr_right fun _ => and_iff_left_of_imp holds.openable_of_reached

theorem read_pathIn {content : List UInt8} :
    fs.read (pathIn dir location) = .ok content ↔
      FileTree.Reached tree location ∧ tree.entry? location = some (.file content) := by
  rw [FileSystem.read_eq_ok]
  constructor
  · rintro ⟨found, located, file⟩
    obtain ⟨rfl, reached⟩ := (holds.locate_pathIn plain proper).mp located
    rw [holds.placed, FileTree.entry?_placed] at file
    exact ⟨reached, file⟩
  · rintro ⟨reached, file⟩
    refine ⟨location ++ dir, (holds.locate_pathIn plain proper).mpr ⟨rfl, reached⟩, ?_⟩
    rw [holds.placed, FileTree.entry?_placed, file]

theorem isFile_pathIn :
    fs.isFile (pathIn dir location) = true ↔
      FileTree.Reached tree location ∧ ∃ content, tree.entry? location = some (.file content) := by
  cases located : fs.locate FileSystem.maxLinks (pathIn dir location) with
  | error problem =>
    have nowhere : ¬ FileTree.Reached tree location := by
      intro reached
      rw [(holds.locate_pathIn plain proper).mpr ⟨rfl, reached⟩] at located
      cases located
    simp [FileSystem.isFile, FileSystem.stat, located, nowhere]
  | ok found =>
    obtain ⟨rfl, reached⟩ := (holds.locate_pathIn plain proper).mp located
    have entry : fs.tree.entry? (location ++ dir) = tree.entry? location := by rw [holds.placed, FileTree.entry?_placed]
    simp only [FileSystem.isFile, FileSystem.stat, located, entry, reached, true_and]
    cases reached with
    | directory walkable => simp [walkable.entry?]
    | file _ _ file => simp [file]

theorem realPath?_of_reached (reached : FileTree.Reached tree location) :
    fs.realPath? (pathIn dir location) = some (pathIn dir location) := by
  have located : fs.locate FileSystem.maxRealLinks (pathIn dir location) = .ok (location ++ dir) :=
    (holds.locate_pathIn plain proper).mpr ⟨rfl, reached⟩
  have plain_fs : fs.tree.WithoutLinks := holds.placed ▸ FileTree.withoutLinks_placed plain dir
  exact FileSystem.realPath?_of_resolve (FileSystem.resolve_of_locate plain_fs (FileTree.isAbs_pathIn _ _) located)

theorem realPath?_of_not_reached (nowhere : ¬ FileTree.Reached tree location) :
    fs.realPath? (pathIn dir location) = none := by
  rw [Option.eq_none_iff_forall_ne_some]
  intro real found
  obtain ⟨led, resolved, -⟩ := FileSystem.realPath?_eq_some.mp found
  have all : Path.AllProper (location ++ dir) := by
    intro name mem
    exact (List.mem_append.mp mem).elim (proper name) (holds.proper name)
  have plain_fs : fs.tree.WithoutLinks := holds.placed ▸ FileTree.withoutLinks_placed plain dir
  have reached := FileSystem.reached_of_resolve resolved
  rw [FileSystem.eq_of_resolve_pathOf plain_fs all resolved, holds.placed,
    FileTree.reached_placed holds.usable] at reached
  exact nowhere reached

theorem canonical_pathIn : fs.canonical (pathIn dir location) = pathIn dir location := by
  rw [FileSystem.canonical, holds.abs_pathIn proper]
  by_cases reached : FileTree.Reached tree location
  · rw [holds.realPath?_of_reached plain proper reached]
    rfl
  · rw [holds.realPath?_of_not_reached plain proper reached]
    rfl

theorem list?_of_walkable (walkable : FileTree.Walkable tree location) :
    fs.list? (pathIn dir location) = some (tree.listing location) := by
  have directory : fs.tree.entry? (location ++ dir) = some .directory := by
    rw [holds.placed, FileTree.entry?_placed, walkable.entry?]
  have names : fs.tree.names (location ++ dir) = tree.names location := by rw [holds.placed, FileTree.names_placed]
  have entries : ∀ name, fs.tree.entry? (name :: (location ++ dir)) = tree.entry? (name :: location) := by
    intro name
    rw [holds.placed, ← List.cons_append, FileTree.entry?_placed]
  simp only [FileSystem.list?, (holds.locate_pathIn plain proper).mpr ⟨rfl, .directory walkable⟩, directory,
    if_true, names, entries, FileTree.listing]

theorem list?_of_file {content : List UInt8} (file : tree.entry? location = some (.file content)) :
    fs.list? (pathIn dir location) = none := by
  unfold FileSystem.list?
  split
  · rfl
  · rename_i found located
    obtain ⟨rfl, -⟩ := (holds.locate_pathIn plain proper).mp located
    rw [if_neg]
    rw [holds.placed, FileTree.entry?_placed, file]
    simp

end

/-- A path that only adds an extension to the name of the directory leads nowhere. -/
theorem not_isFile_beside (plain : tree.WithoutLinks) : fs.isFile (pathIn dir [] ++ ".json") = false := by
  obtain ⟨last, above, rfl⟩ := List.exists_cons_of_ne_nil holds.below_root
  obtain ⟨proper_last, proper_above⟩ := List.forall_mem_cons.mp holds.proper
  have beside : pathIn (last :: above) [] ++ ".json" = pathOf ((last ++ ".json") :: above) := by
    rw [FileTree.pathIn_eq holds.below_root, FileTree.pathOf_cons]
    simp [FileTree.trail, String.append_assoc]
  have differs : last ++ ".json" ≠ last := by
    intro same
    have size := congrArg String.length same
    simp at size
  have nothing : fs.tree.entry? ((last ++ ".json") :: above) = none := by
    rw [holds.placed]
    refine FileTree.entry?_placed_outside (by simp) fun part => ?_
    have same := part.eq_of_length (by simp)
    exact differs (List.cons.inj same).1
  have plain_fs : fs.tree.WithoutLinks := holds.placed ▸ FileTree.withoutLinks_placed plain _
  rw [beside]
  unfold FileSystem.isFile FileSystem.stat
  cases located : fs.locate FileSystem.maxLinks (pathOf ((last ++ ".json") :: above)) with
  | error problem => rfl
  | ok found =>
    obtain ⟨rfl, -⟩ := (FileSystem.locate_pathOf plain_fs
      (List.forall_mem_cons.mpr ⟨proper_last.append_json, proper_above⟩) _).mp located
    simp only [nothing]

end Holds
end ScriptLoader
