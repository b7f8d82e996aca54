import ScriptLoader.Proofs.PlacedTrees
import Mathlib.Data.List.Sort
import Mathlib.Data.String.Basic

/-!
Trees as a file system has them: each location stands in the tree once, in a directory, under a name that can
be looked up. Without links a path leads to the location that its components spell, and nowhere else.
-/

set_option autoImplicit false
namespace ScriptLoader

namespace FileTree
variable {tree : FileTree}

structure WellFormed (tree : FileTree) : Prop where
  once : (tree.entries.map Prod.fst).Nodup
  named : tree.WellNamed
  inside : ∀ held ∈ tree.entries, held.1 ≠ [] ∧ tree.entry? held.1.tail = some .directory

instance (tree : FileTree) : Decidable tree.WellFormed :=
  decidable_of_iff ((tree.entries.map Prod.fst).Nodup ∧ tree.WellNamed ∧
      ∀ held ∈ tree.entries, held.1 ≠ [] ∧ tree.entry? held.1.tail = some .directory)
    ⟨fun ⟨once, named, inside⟩ => ⟨once, named, inside⟩, fun formed => ⟨formed.once, formed.named, formed.inside⟩⟩

theorem mem_entries_of_found {name : String} {above : Location} {entry : Entry}
    (found : tree.entry? (name :: above) = some entry) : (name :: above, entry) ∈ tree.entries := by
  obtain ⟨before, after, entries, -⟩ := List.lookup_eq_some_iff.mp found
  simp [entries]

namespace WellFormed
variable (formed : tree.WellFormed)
include formed

theorem usable {name : String} {above : Location} {entry : Entry} (found : tree.entry? (name :: above) = some entry) :
    Usable name :=
  formed.named _ (mem_entries_of_found found) name List.mem_cons_self

theorem directory {name : String} {above : Location} {entry : Entry}
    (found : tree.entry? (name :: above) = some entry) :
    tree.entry? above = some .directory :=
  (formed.inside _ (mem_entries_of_found found)).2

theorem walkable {location : Location} (directory : tree.entry? location = some .directory) :
    Walkable tree location := by
  induction location with
  | nil => exact .root
  | cons name above ih => exact .down (ih (formed.directory directory)) (formed.usable directory) directory

theorem directory_of_suffix {location above : Location} {entry : Entry} (found : tree.entry? location = some entry)
    (part : above <:+ location) (differs : above ≠ location) : tree.entry? above = some .directory := by
  induction location generalizing entry with
  | nil => exact absurd (List.suffix_nil.mp part) differs
  | cons name parent ih =>
    have inner : above <:+ parent := (List.suffix_cons_iff.mp part).resolve_left differs
    by_cases same : above = parent
    · rw [same]
      exact formed.directory found
    · exact ih (formed.directory found) inner same

theorem proper {location : Location} {entry : Entry} (found : tree.entry? location = some entry) :
    Path.AllProper location := by
  cases location with
  | nil => exact fun _ mem => absurd mem List.not_mem_nil
  | cons name above =>
    have inside := (formed.walkable (formed.directory found)).usable
    exact List.forall_mem_cons.mpr ⟨(formed.usable found).toProper, fun other mem => (inside other mem).toProper⟩

end WellFormed

/-! ## Listings -/

theorem increasing_names (tree : FileTree) (directory : Location) :
    (tree.names directory).Pairwise Text.Utf8.Precedes :=
  Text.Utf8.increasing_inOrder _

theorem increasing_listing (tree : FileTree) (directory : Location) :
    (tree.listing directory).Pairwise fun item other => Text.Utf8.Precedes item.name other.name := by
  rw [listing, List.pairwise_filterMap]
  refine (tree.increasing_names directory).imp ?_
  intro first second before item found item' found'
  obtain ⟨_, -, rfl⟩ := Option.map_eq_some_iff.mp found
  obtain ⟨_, -, rfl⟩ := Option.map_eq_some_iff.mp found'
  exact before

theorem mem_listing {directory : Location} {item : FileSystem.Listed} :
    item ∈ tree.listing directory ↔ tree.entry? (item.name :: directory) = some item.entry := by
  constructor
  · exact fun mem => (of_mem_listing mem).2
  · intro found
    have named : nameIn? directory (item.name :: directory, item.entry) = some item.name := if_pos rfl
    refine List.mem_filterMap.mpr ⟨item.name, ?_, by rw [found]; rfl⟩
    rw [names_eq, Text.Utf8.mem_inOrder]
    exact List.mem_filterMap.mpr ⟨_, mem_entries_of_found found, named⟩

/-- Without links, names lead to what they come to when they are worked off one by one. -/
theorem eq_foldl_of_followNames (plain : tree.WithoutLinks)
    {jump : Location → List String → Except FileProblem Location}
    {here location : Location} {names : List String} (opened : Opened tree here)
    (found : tree.followNames jump here names = .ok location) : location = names.foldl (Path.push true) here := by
  induction names generalizing here with
  | nil =>
    cases found
    rfl
  | cons name rest ih =>
    rw [List.foldl_cons]
    rw [followNames] at found
    split at found
    · rename_i nothing
      have stays : Path.push true here name = here := if_pos nothing
      rw [stays]
      exact ih opened found
    · rename_i something
      split at found
      · rename_i up
        rw [up, opened.push_up]
        exact ih opened.tail found
      · rename_i down
        have deeper : Path.push true here name = name :: here := by simp only [Path.push, if_neg something, if_neg down]
        rw [deeper]
        split at found
        · cases found
        · split at found
          · cases found
          · rename_i directory
            exact ih ⟨down, directory, opened⟩ found
          · -- A file ends the way, so that no name is left.
            split at found
            · rename_i at_end
              cases found
              rw [List.isEmpty_iff.mp at_end]
              rfl
            · cases found
          · rename_i target link
            exact absurd link (plain.entry?_ne_link _ _)

theorem followNames_withoutLinks (plain : tree.WithoutLinks)
    (jump jump' : Location → List String → Except FileProblem Location) (here : Location) (names : List String) :
    tree.followNames jump here names = tree.followNames jump' here names := by
  induction names generalizing here with
  | nil => rfl
  | cons name rest ih =>
    rw [followNames, followNames, ih, ih, ih]
    cases found : tree.entry? (name :: here) with
    | none => rfl
    | some entry =>
      cases entry with
      | link target => exact absurd found (plain.entry?_ne_link _ _)
      | directory => rfl
      | file content => rfl

end FileTree

namespace FileSystem
variable {fs : FileSystem} (plain : fs.tree.WithoutLinks)
include plain

theorem eq_components_of_locate {links : Nat} {path : String} {location : Location} (rooted : Path.isAbs path = true)
    (found : fs.locate links path = .ok location) : location = (Path.components path).reverse := by
  have followed := follow_of_locate rooted found
  obtain ⟨jump, same⟩ := fs.tree.follow_eq_followNames links
  rw [same] at followed
  rw [Path.components, rooted, Path.reduce, List.reverse_reverse]
  exact FileTree.eq_foldl_of_followNames plain trivial followed

theorem locate_links (links other : Nat) (path : String) : fs.locate links path = fs.locate other path := by
  obtain ⟨jump, same⟩ := fs.tree.follow_eq_followNames links
  obtain ⟨jump', same'⟩ := fs.tree.follow_eq_followNames other
  rw [locate, locate, same, same', FileTree.followNames_withoutLinks plain jump jump']

end FileSystem
end ScriptLoader
