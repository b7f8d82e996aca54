import ScriptLoader.Proofs.PlainTrees
import Mathlib.Data.List.Flatten
import Mathlib.Data.List.Infix

/-!
Locations and their paths. A location that names lead to is spelled by one clean path, and following that path
leads back to it without a link on the way.
-/

set_option autoImplicit false
namespace ScriptLoader

theorem Text.split_append_split {α : Type} [DecidableEq α] {separator : α} (s rest : List α) :
    split separator (s ++ separator :: rest) = split separator s ++ split separator rest := by
  induction s with
  | nil => simp [split]
  | cons c s ih =>
    rw [List.cons_append, split, split, ih]
    split
    · rfl
    · cases pieces : split separator s with
      | nil => exact absurd pieces (split_ne_nil s)
      | cons first others => rfl

theorem Text.intercalate_split {α : Type} [DecidableEq α] (separator : α) (s : List α) :
    [separator].intercalate (split separator s) = s := by
  induction s with
  | nil => rfl
  | cons c rest ih =>
    rw [split]
    cases parts : split separator rest with
    | nil => exact absurd parts (split_ne_nil _)
    | cons piece others =>
      rw [parts] at ih
      split
      next same => rw [List.intercalate_cons_cons, ih, same]; rfl
      next =>
        cases others with
        | nil => simpa using ih
        | cons next others => simpa [List.intercalate_cons_cons] using ih

theorem Text.intercalate_pieces (s : String) : String.intercalate "/" (pieces s '/') = s := by
  apply String.toList_inj.mp
  rw [String.toList_intercalate, pieces, List.map_map]
  exact (congrArg _ ((List.map_congr_left fun _ _ => String.toList_ofList).trans (List.map_id _))).trans
    (intercalate_split '/' s.toList)

namespace Path

theorem tails_eq {α : Type} (items : List α) : tails items = items.tails := by
  induction items with
  | nil => rfl
  | cons item rest ih => simp [tails, ih]

theorem toList_ofComponents {names : List String} (some_name : names ≠ []) :
    (ofComponents true names).toList = names.flatMap ('/' :: ·.toList) := by
  induction names with
  | nil => exact absurd rfl some_name
  | cons name rest ih =>
    by_cases alone : rest = []
    · simp [alone, ofComponents]
    · rw [List.flatMap_cons, ← ih alone, ofComponents, ofComponents, String.intercalate_cons_of_ne_nil alone]
      simp

/-- A name that stands for itself in a path. -/
structure Proper (name : String) : Prop where
  some_text : name ≠ ""
  not_here : name ≠ "."
  not_up : name ≠ ".."
  no_slash : '/' ∉ name.toList

instance (name : String) : Decidable (Proper name) :=
  decidable_of_iff (name ≠ "" ∧ name ≠ "." ∧ name ≠ ".." ∧ '/' ∉ name.toList)
    ⟨fun ⟨a, b, c, d⟩ => ⟨a, b, c, d⟩, fun ⟨a, b, c, d⟩ => ⟨a, b, c, d⟩⟩

abbrev AllProper (names : List String) : Prop := ∀ name ∈ names, Proper name

theorem settled_iff_proper {names : List String} : Settled true names ↔ AllProper names := by
  unfold AllProper
  induction names with
  | nil => simp [Settled]
  | cons last above ih =>
    rw [Settled, ih, List.forall_mem_cons]
    constructor
    · rintro ⟨some_text, not_here, no_slash, up, above_proper⟩
      exact ⟨⟨some_text, not_here, fun same => Bool.noConfusion (up same).1, no_slash⟩, above_proper⟩
    · rintro ⟨proper, above_proper⟩
      exact ⟨proper.some_text, proper.not_here, proper.no_slash, fun same => absurd same proper.not_up, above_proper⟩

theorem settled_of_proper (rooted : Bool) {names : List String} (proper : AllProper names) : Settled rooted names := by
  induction names with
  | nil => trivial
  | cons name rest ih =>
    obtain ⟨first, others⟩ := List.forall_mem_cons.mp proper
    exact ⟨first.some_text, first.not_here, first.no_slash, fun same => absurd same first.not_up, ih others⟩

theorem Proper.push {name : String} (proper : Proper name) (rooted : Bool) (above : List String) :
    Path.push rooted above name = name :: above := by
  simp [Path.push, proper.some_text, proper.not_here, proper.not_up]

theorem pieces_append (p q : String) : Text.pieces (p ++ "/" ++ q) '/' = Text.pieces p '/' ++ Text.pieces q '/' := by
  have chars : (p ++ "/" ++ q).toList = p.toList ++ '/' :: q.toList := by simp
  rw [Text.pieces, chars, Text.split_append_split, List.map_append, Text.pieces, Text.pieces]

section
variable {names : List String} (proper : AllProper names)
include proper

theorem pieces_ofComponents (some_name : names ≠ []) : Text.pieces (ofComponents true names) '/' = "" :: names := by
  have whole : ofComponents true names = "" ++ "/" ++ String.intercalate "/" names := by simp [ofComponents]
  rw [whole, pieces_append, pieces_intercalate some_name fun name mem => (proper name mem).no_slash]
  rfl

theorem pieces_relative (some_name : names ≠ []) : Text.pieces (ofComponents false names) '/' = names := by
  rw [ofComponents, if_neg Bool.false_ne_true, if_neg (by simpa using some_name)]
  exact pieces_intercalate some_name fun name mem => (proper name mem).no_slash

theorem isAbs_of_proper (rooted : Bool) : isAbs (ofComponents rooted names) = rooted := by
  cases rooted with
  | true => exact isAbs_ofComponents names
  | false =>
    by_cases none_left : names = []
    · subst none_left
      decide
    · rw [ofComponents, if_neg Bool.false_ne_true, if_neg (by simpa using none_left)]
      exact isAbs_intercalate (fun name mem => (proper name mem).some_text) fun name mem => (proper name mem).no_slash

theorem components_ofComponents {rooted : Bool} : components (ofComponents rooted names) = names := by
  by_cases none_left : names = []
  · subst none_left
    cases rooted <;> decide
  · have settled : Settled rooted names.reverse := settled_of_proper rooted fun name mem =>
      proper name (List.mem_reverse.mp mem)
    rw [components, isAbs_of_proper proper]
    cases rooted with
    | true =>
      rw [pieces_ofComponents proper none_left]
      exact reduce_of_settled settled
    | false => rw [pieces_relative proper none_left, reduce_of_settled settled]

theorem clean_ofComponents {rooted : Bool} : clean (ofComponents rooted names) = ofComponents rooted names := by
  rw [clean, isAbs_of_proper proper, components_ofComponents proper]

end

theorem proper_of_mem_components {p : String} (rooted : isAbs p = true) : AllProper (components p) := by
  have settled := settled_components p
  rw [rooted, settled_iff_proper] at settled
  exact fun name mem => settled name (List.mem_reverse.mpr mem)

theorem join_eq {p : String} (rooted : isAbs p = true) (q : String) :
    join [p, q] = ofComponents true ((Text.pieces q '/').foldl (push true) (components p).reverse).reverse := by
  have some_text : p ≠ "" := ne_empty_of_isAbs rooted
  by_cases blank : q = ""
  · subst blank
    have stays : (Text.pieces "" '/').foldl (push true) (components p).reverse = (components p).reverse := rfl
    rw [stays, List.reverse_reverse]
    simp [join, some_text, clean, rooted]
  · have whole : join [p, q] = clean (p ++ "/" ++ q) := by simp [join, some_text, blank]
    have rooted_whole : isAbs (p ++ "/" ++ q) = true := isAbs_append (isAbs_append rooted _) _
    rw [whole, clean, rooted_whole, components, rooted_whole, pieces_append, reduce,
      List.foldl_append, components, reduce, rooted, List.reverse_reverse]

theorem isAbs_append_slash {p : String} (some_text : p ≠ "") (rest : String) : isAbs (p ++ "/" ++ rest) = isAbs p := by
  have chars : p.toList ≠ [] := fun none_left => some_text (String.toList_inj.mp none_left)
  obtain ⟨c, others, whole⟩ := List.exists_cons_of_ne_nil chars
  simp [isAbs, whole]

/-- A name that stands for itself comes after the components of the path that it is put behind. -/
theorem components_append_name {p name : String} (some_text : p ≠ "") (proper : Proper name) :
    components (p ++ "/" ++ name) = components p ++ [name] := by
  rw [components, isAbs_append_slash some_text, pieces_append, Text.pieces_of_not_mem proper.no_slash, reduce,
    List.foldl_append, List.foldl_cons, List.foldl_nil, proper.push, List.reverse_cons, components, reduce]

theorem join_proper {rooted : Bool} {names : List String} (proper : AllProper names)
    {name : String} (last : Proper name) :
    join [ofComponents rooted names, name] = ofComponents rooted (names ++ [name]) := by
  have some_text : ofComponents rooted names ≠ "" := by
    intro same
    have names_left : components (ofComponents rooted names) = names := components_ofComponents proper
    rw [same] at names_left
    rw [← names_left] at same
    cases rooted <;> exact absurd same (by decide)
  have whole : join [ofComponents rooted names, name] = clean (ofComponents rooted names ++ "/" ++ name) := by
    simp [join, some_text, last.some_text]
  rw [whole, clean, isAbs_append_slash some_text, components_append_name some_text last, isAbs_of_proper proper,
    components_ofComponents proper]

theorem dir_ofComponents {names : List String} {last : String} (proper : AllProper (names ++ [last])) :
    dir (ofComponents true (names ++ [last])) = ofComponents true names := by
  have whole : Text.pieces (ofComponents true (names ++ [last])) '/' = ("" :: names) ++ [last] :=
    pieces_ofComponents proper (by simp)
  have settled : Settled true (names.reverse ++ []) := by
    rw [List.append_nil]
    exact settled_iff_proper.mpr fun name mem => proper name (List.mem_append_left _ (List.mem_reverse.mp mem))
  rw [dir_of_pieces (isAbs_ofComponents _) whole, List.foldl_cons]
  have skipped : push true [] "" = [] := rfl
  rw [skipped, foldl_push_of_settled [] settled]
  simp

theorem ofComponents_injective {names other : List String} (proper : AllProper names)
    (proper' : AllProper other) (same : ofComponents true names = ofComponents true other) : names = other := by
  rw [← components_ofComponents proper, same, components_ofComponents proper']

theorem eq_ofComponents_of_clean {p : String} (rooted : isAbs p = true) (settled : clean p = p) :
    p = ofComponents true (components p) := by
  rw [← settled, components_clean, clean, rooted, components]

end Path

namespace FileTree

structure Usable (name : String) : Prop extends Path.Proper name where
  short : Text.Utf8.size name ≤ maxNameSize

instance (name : String) : Decidable (Usable name) :=
  decidable_of_iff (Path.Proper name ∧ Text.Utf8.size name ≤ maxNameSize) ⟨fun ⟨a, b⟩ => ⟨a, b⟩, fun ⟨a, b⟩ => ⟨a, b⟩⟩

/-- A directory to which directories lead, by names that can be looked up. -/
inductive Walkable (tree : FileTree) : Location → Prop where
  | root : Walkable tree []
  | down {name : String} {above : Location} : Walkable tree above → Usable name →
      tree.entry? (name :: above) = some .directory → Walkable tree (name :: above)

/-- A directory or a file to which directories lead. -/
inductive Reached (tree : FileTree) : Location → Prop where
  | directory {location : Location} : Walkable tree location → Reached tree location
  | file {name : String} {above : Location} {content : List UInt8} : Walkable tree above → Usable name →
      tree.entry? (name :: above) = some (.file content) → Reached tree (name :: above)

section
variable {tree : FileTree} {jump : Location → List String → Except FileProblem Location}

theorem Walkable.entry? {location : Location} (walkable : Walkable tree location) :
    tree.entry? location = some .directory := by
  cases walkable with
  | root => rfl
  | down _ _ directory => exact directory

theorem Walkable.tail {location : Location} (walkable : Walkable tree location) : Walkable tree location.tail := by
  cases walkable with
  | root => exact .root
  | down above _ _ => exact above

theorem Walkable.usable {location : Location} (walkable : Walkable tree location) : ∀ name ∈ location, Usable name := by
  induction walkable with
  | root => simp
  | down _ usable _ ih => exact List.forall_mem_cons.mpr ⟨usable, ih⟩

theorem Reached.usable {location : Location} (reached : Reached tree location) : ∀ name ∈ location, Usable name := by
  cases reached with
  | directory walkable => exact walkable.usable
  | file walkable usable _ => exact List.forall_mem_cons.mpr ⟨usable, walkable.usable⟩

theorem Reached.proper_reverse {location : Location} (reached : Reached tree location) :
    Path.AllProper location.reverse :=
  fun name mem => (reached.usable name (List.mem_reverse.mp mem)).toProper

theorem reached_of_followNames {here location : Location} {names : List String}
    (jumps : ∀ {here location names}, Walkable tree here → (∀ name ∈ names, '/' ∉ name.toList) →
      jump here names = .ok location → Reached tree location)
    (walkable : Walkable tree here) (no_slash : ∀ name ∈ names, '/' ∉ name.toList)
    (found : tree.followNames jump here names = .ok location) : Reached tree location := by
  induction names generalizing here with
  | nil =>
    cases found
    exact .directory walkable
  | cons name rest ih =>
    obtain ⟨clear, clear_rest⟩ := List.forall_mem_cons.mp no_slash
    rw [followNames] at found
    split at found
    · exact ih walkable clear_rest found
    · rename_i something
      split at found
      · exact ih walkable.tail clear_rest found
      · rename_i down
        split at found
        · cases found
        · rename_i short
          have usable : Usable name :=
            ⟨⟨fun same => something (.inl same), fun same => something (.inr same), down, clear⟩,
              Nat.le_of_not_lt short⟩
          split at found
          · cases found
          · rename_i directory
            exact ih (.down walkable usable directory) clear_rest found
          · rename_i file
            split at found
            · cases found
              exact .file walkable usable file
            · cases found
          · -- The names of the target go on from the root or from the directory of the link.
            rename_i target link
            refine jumps ?_ ?_ found
            · split
              · exact .root
              · exact walkable
            · intro piece mem
              rcases List.mem_append.mp mem with mem | mem
              · exact Text.not_mem_of_mem_pieces mem
              · exact clear_rest piece mem

/-- Wherever names lead, with links on the way or without, directories alone lead there too. -/
theorem reached_of_follow {links : Nat} {here location : Location} {names : List String} (walkable : Walkable tree here)
    (no_slash : ∀ name ∈ names, '/' ∉ name.toList) (found : tree.follow links here names = .ok location) :
    Reached tree location := by
  induction links generalizing here names location with
  | zero => exact reached_of_followNames (fun _ _ stuck => by cases stuck) walkable no_slash found
  | succ links ih => exact reached_of_followNames ih walkable no_slash found

theorem followNames_cons {here : Location} {name : String} (usable : Usable name) (rest : List String) :
    tree.followNames jump here (name :: rest) =
      match tree.entry? (name :: here) with
      | none => .error .notFound
      | some .directory => tree.followNames jump (name :: here) rest
      | some (.file _) => if rest.isEmpty then .ok (name :: here) else .error .notDirectory
      | some (.link target) => jump (if Path.isAbs target then [] else here) (Text.pieces target '/' ++ rest) := by
  have short : ¬ maxNameSize < Text.Utf8.size name := Nat.not_lt.mpr usable.short
  have something : ¬ (name = "" ∨ name = ".") := by simp [usable.some_text, usable.not_here]
  rewrite [followNames, if_neg something, if_neg usable.not_up, if_neg short]
  rfl

theorem Walkable.followNames {location : Location} (walkable : Walkable tree location) (rest : List String) :
    tree.followNames jump [] (location.reverse ++ rest) = tree.followNames jump location rest := by
  induction walkable generalizing rest with
  | root => rfl
  | down _ usable directory ih =>
    rw [List.reverse_cons, List.append_assoc, List.singleton_append, ih, followNames_cons usable, directory]

theorem Reached.followNames {location : Location} (reached : Reached tree location) :
    tree.followNames jump [] location.reverse = .ok location := by
  cases reached with
  | directory walkable =>
    rw [← List.append_nil location.reverse, walkable.followNames]
    rfl
  | file walkable usable file =>
    rw [List.reverse_cons, walkable.followNames, followNames_cons usable, file]
    rfl

theorem follow_eq_followNames (links : Nat) :
    ∃ jump, ∀ here names, tree.follow links here names = tree.followNames jump here names := by
  cases links with
  | zero => exact ⟨_, fun _ _ => rfl⟩
  | succ links => exact ⟨_, fun _ _ => rfl⟩

theorem Reached.follow {location : Location} (reached : Reached tree location) (links : Nat) :
    tree.follow links [] (Text.pieces (pathOf location) '/') = .ok location := by
  obtain ⟨jump, same⟩ := tree.follow_eq_followNames links
  by_cases at_root : location = []
  · subst at_root
    have pieces_root : Text.pieces (pathOf []) '/' = ["", ""] := by decide
    rw [same, pieces_root]
    rfl
  · rw [same, pathOf, Path.pieces_ofComponents reached.proper_reverse (by simpa using at_root)]
    -- The empty name before the first slash leads nowhere else.
    exact reached.followNames

end
end FileTree

namespace FileSystem
variable {fs : FileSystem}

theorem reached_of_locate {links : Nat} {path : String} {location : Location} (rooted : Path.isAbs path = true)
    (found : fs.locate links path = .ok location) : FileTree.Reached fs.tree location :=
  FileTree.reached_of_follow .root (fun _ mem => Text.not_mem_of_mem_pieces mem) (follow_of_locate rooted found)

/-- A path that can be opened at all: it has no null character and is not too long. -/
def Openable (path : String) : Prop := '\x00' ∉ path.toList ∧ Text.Utf8.size path < maxPathSize

instance (path : String) : Decidable (Openable path) := inferInstanceAs (Decidable (_ ∧ _))

theorem Openable.of_sublist {path longer : String} (openable : Openable longer)
    (part : path.toList.Sublist longer.toList) : Openable path := by
  refine ⟨fun mem => openable.1 (part.subset mem), Nat.lt_of_le_of_lt ?_ openable.2⟩
  exact (part.flatMap Text.Utf8.encodeChar).length_le

theorem locate_of_openable {path : String} (rooted : Path.isAbs path = true) (openable : Openable path) (links : Nat) :
    fs.locate links path = fs.tree.follow links [] (Text.pieces path '/') := by
  have some_text : path ≠ "" := Path.ne_empty_of_isAbs rooted
  have no_null : path.toList.contains '\x00' = false := by simpa using openable.1
  have short : ¬ maxPathSize ≤ Text.Utf8.size path := Nat.not_le.mpr openable.2
  simp only [locate, no_null, some_text, short, rooted, if_true, if_false, Bool.false_eq_true]

theorem locate_of_not_openable {path : String} (closed : ¬ Openable path) (links : Nat) :
    ∃ problem, fs.locate links path = .error problem := by
  rw [locate]
  split
  · exact ⟨_, rfl⟩
  · rename_i no_null
    split
    · exact ⟨_, rfl⟩
    · split
      · exact ⟨_, rfl⟩
      · rename_i short
        exact absurd ⟨by simpa using no_null, Nat.not_le.mp short⟩ closed

theorem abs_pathOf {location : Location} (reached : FileTree.Reached fs.tree location) :
    fs.abs (FileTree.pathOf location) = FileTree.pathOf location := by
  rw [abs, FileTree.pathOf, Path.abs, if_pos (Path.isAbs_ofComponents _),
    Path.clean_ofComponents reached.proper_reverse]

end FileSystem
end ScriptLoader
