import ScriptLoader.Proofs.CleanPath
import ScriptLoader.FileTree

/-!
File trees without links. There the directory that the text of a path names is the one in which the path leads to its
file: two paths of one file name the same directory, however they are written.
-/

set_option autoImplicit false
namespace ScriptLoader

namespace Text
variable {α : Type} [DecidableEq α] {separator : α}

theorem split_ne_nil (s : List α) : split separator s ≠ [] := by
  cases s with
  | nil => simp [split]
  | cons c rest =>
    rw [split]
    split
    · simp
    · split <;> simp

theorem split_append_last (s : List α) {last : List α} (absent : separator ∉ last) :
    split separator (s ++ separator :: last) = split separator s ++ [last] := by
  induction s with
  | nil => simp [split, split_of_not_mem absent]
  | cons c rest ih =>
    rw [List.cons_append, split, split, ih]
    split
    · rfl
    · cases pieces : split separator rest with
      | nil => exact absurd pieces (split_ne_nil rest)
      | cons first others => rfl

theorem exists_last_of_mem {c : Char} {chars : List Char} (mem : c ∈ chars) :
    ∃ before last, chars = before ++ c :: last ∧ c ∉ last := by
  obtain ⟨last, before, whole, absent⟩ := List.eq_append_cons_of_mem (List.mem_reverse.mpr mem)
  refine ⟨before.reverse, last.reverse, ?_, fun mem => absent (List.mem_reverse.mp mem)⟩
  rw [← List.reverse_reverse chars, whole]
  simp

end Text

namespace Path

theorem splitLast_of_append {p : String} {s last : List Char} (chars : p.toList = s ++ '/' :: last)
    (absent : '/' ∉ last) :
    splitLast p = (String.ofList (s ++ ['/']), String.ofList last) := by
  have name : (p.toList.reverse.takeWhile (· ≠ '/')).reverse = last := by
    have clear : ∀ c ∈ last.reverse, decide (c ≠ '/') = true := by
      intro c mem
      exact decide_eq_true fun same => absent (same ▸ List.mem_reverse.mp mem)
    rw [chars, List.reverse_append, List.reverse_cons, List.append_assoc, List.takeWhile_append_of_pos clear]
    simp
  have size : p.length - last.length = (s ++ ['/']).length := by
    rw [← String.length_toList, chars]
    simp only [List.length_append, List.length_cons, List.length_nil]
    omega
  have apart : p.toList = (s ++ ['/']) ++ last := by simp [chars]
  rw [splitLast, name, size, apart, List.take_left]

theorem splitLast_of_not_mem {p : String} (absent : '/' ∉ p.toList) : (splitLast p).2 = p := by
  have all : ∀ c ∈ p.toList.reverse, decide (c ≠ '/') = true := by
    intro c mem
    exact decide_eq_true fun same => absent (same ▸ List.mem_reverse.mp mem)
  have whole : (p.toList.reverse ++ []).takeWhile (fun c => decide (c ≠ '/')) = p.toList.reverse ++ [] :=
    List.takeWhile_append_of_pos all
  rw [List.append_nil] at whole
  simp only [splitLast, whole, List.reverse_reverse, String.ofList_toList]

theorem exists_last_slash {p : String} (rooted : isAbs p = true) :
    ∃ s last, p.toList = s ++ '/' :: last ∧ '/' ∉ last := by
  have slash : '/' ∈ p.toList := by
    rw [isAbs, beq_iff_eq] at rooted
    exact List.mem_of_mem_head? rooted
  exact Text.exists_last_of_mem slash

theorem dir_of_pieces {p : String} (rooted : isAbs p = true) {names : List String} {last : String}
    (whole : Text.pieces p '/' = names ++ [last]) : dir p = ofComponents true (names.foldl (push true) []).reverse := by
  obtain ⟨s, name, chars, absent⟩ := exists_last_slash rooted
  have before : (Text.split '/' s).map String.ofList = names := by
    rw [Text.pieces, chars, Text.split_append_last s absent, List.map_append] at whole
    exact (List.append_inj' whole rfl).1
  have rooted_before : isAbs (splitLast p).1 = true := by
    have rooted_dir := isAbs_dir rooted
    rwa [dir, isAbs_clean_eq] at rooted_dir
  have pieces_before : Text.pieces (splitLast p).1 '/' = names ++ [""] := by
    rw [splitLast_of_append chars absent, Text.pieces, String.toList_ofList,
      Text.split_append_last s List.not_mem_nil, List.map_append, before]
    rfl
  -- The empty piece after the slash counts for nothing.
  rw [dir, clean, components, rooted_before, pieces_before, reduce, List.foldl_append]
  rfl

end Path

def Entry.isLink : Entry → Bool
  | .link _ => true
  | _ => false

namespace FileTree

def WithoutLinks (tree : FileTree) : Prop := ∀ held ∈ tree.entries, held.2.isLink = false

instance (tree : FileTree) : Decidable tree.WithoutLinks := inferInstanceAs (Decidable (∀ held ∈ tree.entries, _))

theorem WithoutLinks.entry?_ne_link {tree : FileTree} (plain : tree.WithoutLinks)
    (location : Location) (target : String) :
    tree.entry? location ≠ some (.link target) := by
  intro found
  cases location with
  | nil => cases found
  | cons name above =>
    obtain ⟨before, after, entries, -⟩ := List.lookup_eq_some_iff.mp found
    have listed : (name :: above, Entry.link target) ∈ tree.entries := by simp [entries]
    exact absurd (plain _ listed) (by simp [Entry.isLink])

/-- A way down through directories alone. -/
def Opened (tree : FileTree) : Location → Prop
  | [] => True
  | name :: above => name ≠ ".." ∧ tree.entry? (name :: above) = some .directory ∧ Opened tree above

theorem Opened.tail {tree : FileTree} {here : Location} (opened : Opened tree here) : Opened tree here.tail := by
  cases here with
  | nil => trivial
  | cons name above => exact opened.2.2

theorem Opened.entry? {tree : FileTree} {here : Location} (opened : Opened tree here) :
    tree.entry? here = some .directory := by
  cases here with
  | nil => rfl
  | cons name above => exact opened.2.1

theorem Opened.push_up {tree : FileTree} {here : Location} (opened : Opened tree here) :
    Path.push true here ".." = here.tail := by
  cases here with
  | nil => rfl
  | cons name above => simp [Path.push, opened.1]

/-- The last of the names is that of something in the directory to which the others reduce. -/
def EndsIn (here : Location) (names : List String) (location : Location) : Prop :=
  ∃ before last, names = before ++ [last] ∧ location = last :: before.foldl (Path.push true) here

theorem EndsIn.cons {here next location : Location} {name : String} {rest : List String}
    (step : Path.push true here name = next) (ends : EndsIn next rest location) :
    EndsIn here (name :: rest) location := by
  obtain ⟨before, last, rfl, same⟩ := ends
  exact ⟨name :: before, last, rfl, by rw [List.foldl_cons, step, same]⟩

/-- In a tree without links names lead to a directory, or to a file in the directory that all but the last of
them name. -/
theorem followNames_eq_ok {tree : FileTree} (plain : tree.WithoutLinks)
    {jump : Location → List String → Except FileProblem Location} {here location : Location} {names : List String}
    (opened : Opened tree here) (found : tree.followNames jump here names = .ok location) :
    Opened tree location ∨ EndsIn here names location := by
  induction names generalizing here with
  | nil =>
    cases found
    exact .inl opened
  | cons name rest ih =>
    rw [followNames] at found
    split at found
    · rename_i nothing
      have stays : Path.push true here name = here := if_pos nothing
      exact (ih opened found).imp_right fun ends => ends.cons stays
    · rename_i something
      split at found
      · rename_i up
        have higher : Path.push true here name = here.tail := up ▸ opened.push_up
        exact (ih opened.tail found).imp_right fun ends => ends.cons higher
      · rename_i down
        have deeper : Path.push true here name = name :: here := by simp only [Path.push, if_neg something, if_neg down]
        split at found
        · cases found
        · split at found
          · cases found
          · rename_i directory
            have opened_deeper : Opened tree (name :: here) := ⟨down, directory, opened⟩
            exact (ih opened_deeper found).imp_right fun ends => ends.cons deeper
          · split at found
            · rename_i at_end
              cases found
              rw [List.isEmpty_iff] at at_end
              exact .inr ⟨[], name, by rw [at_end]; rfl, rfl⟩
            · cases found
          · rename_i target link
            exact absurd link (plain.entry?_ne_link _ _)

theorem follow_eq_ok {tree : FileTree} (plain : tree.WithoutLinks) {links : Nat}
    {location : Location} {names : List String}
    (found : tree.follow links [] names = .ok location) : Opened tree location ∨ EndsIn [] names location := by
  cases links with
  | zero => exact followNames_eq_ok plain trivial found
  | succ links => exact followNames_eq_ok plain trivial found

end FileTree

namespace FileSystem
variable {fs : FileSystem} {path : String} {location : Location}

theorem follow_of_locate {links : Nat} (rooted : Path.isAbs path = true) (found : fs.locate links path = .ok location) :
    fs.tree.follow links [] (Text.pieces path '/') = .ok location := by
  rw [locate] at found
  split at found
  · cases found
  · split at found
    · cases found
    · split at found
      · cases found
      · simpa only [rooted, if_true] using found

theorem dir_of_locate {links : Nat} (plain : fs.tree.WithoutLinks) (rooted : Path.isAbs path = true)
    (found : fs.locate links path = .ok location) (file : fs.tree.entry? location ≠ some .directory) :
    Path.dir path = FileTree.pathOf location.tail := by
  rcases FileTree.follow_eq_ok plain (follow_of_locate rooted found) with opened | ⟨before, last, whole, rfl⟩
  · exact absurd opened.entry? file
  · exact Path.dir_of_pieces rooted whole

theorem read_eq_ok {content : List UInt8} :
    fs.read path = .ok content ↔
      ∃ location, fs.locate maxLinks path = .ok location ∧ fs.tree.entry? location = some (.file content) := by
  rw [read]
  cases fs.locate maxLinks path with
  | error problem => simp
  | ok location =>
    constructor
    · intro found
      refine ⟨location, rfl, ?_⟩
      dsimp only at found
      split at found
      · cases found
        assumption
      · cases found
      · cases found
    · rintro ⟨_, ⟨⟩, file⟩
      simp only [file]

end FileSystem
end ScriptLoader
