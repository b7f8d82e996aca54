import ScriptLoader.Proofs.FileNames

/-!
Relative paths. A path that stays below the working directory leads to the same file as the path from the root
that goes through the working directory, if that one is short enough to be opened.
-/

set_option autoImplicit false
namespace ScriptLoader

namespace Path

theorem push_inside {inner : List String} (above : List String) {part : String}
    (inside : ".." ∉ push false inner part) :
    ".." ∉ inner ∧ push true (inner ++ above) part = push false inner part ++ above := by
  unfold push at inside ⊢
  split at inside
  next nothing => simp [nothing, inside]
  next something =>
    split at inside
    next up =>
      cases inner with
      | nil => simp at inside
      | cons last rest =>
        by_cases out : last = ".."
        · simp [out] at inside
        · simp only [if_neg out] at inside
          simp [up, out, Ne.symm out, inside]
    next name => simpa [something, name] using List.not_mem_of_not_mem_cons inside

/-- A relative path that does not lead out is worked off in the same way behind any other path. -/
theorem foldl_push_inside (above : List String) {parts : List String} (inside : ".." ∉ parts.foldl (push false) []) :
    parts.foldl (push true) above = parts.foldl (push false) [] ++ above := by
  -- From the end: once a part has led out, no later part leads in again.
  induction parts using List.reverseRecOn with
  | nil => rfl
  | append_singleton parts part ih =>
    simp only [List.foldl_append, List.foldl_cons, List.foldl_nil] at inside ⊢
    obtain ⟨before, now⟩ := push_inside above inside
    rw [ih before, now]

theorem proper_of_inside {rooted : Bool} {names : List String} (settled : Settled rooted names)
    (inside : ".." ∉ names) :
    AllProper names := by
  induction names with
  | nil => exact fun _ mem => absurd mem List.not_mem_nil
  | cons last above ih =>
    obtain ⟨some_text, not_here, no_slash, -, settled_above⟩ := settled
    have not_up : last ≠ ".." := (List.ne_of_not_mem_cons inside).symm
    exact List.forall_mem_cons.mpr
      ⟨⟨some_text, not_here, not_up, no_slash⟩, ih settled_above (List.not_mem_of_not_mem_cons inside)⟩

theorem proper_components {p : String} (inside : ".." ∉ components p) : AllProper (components p) := by
  have proper := proper_of_inside (settled_components p) fun up => inside (List.mem_reverse.mp up)
  exact fun name mem => proper name (List.mem_reverse.mpr mem)

section
variable {cwd p above : String} (here : isAbs cwd = true) (relative : isAbs p = false)
  (whole : p = above ++ "/" ++ (splitLast p).2)
include relative whole

theorem exists_before_slash : (splitLast p).1 = above ++ "/" ++ "" ∧ above ≠ "" ∧ isAbs above = false := by
  have some_text : above ≠ "" := by
    rintro rfl
    rw [whole] at relative
    simp [isAbs] at relative
  have chars : p.toList = above.toList ++ '/' :: (splitLast p).2.toList := by
    conv_lhs => rw [whole]
    simp
  refine ⟨?_, some_text, ?_⟩
  · rw [splitLast_of_append chars (exists_last p).1]
    simp
  · rw [whole, isAbs_append_slash some_text] at relative
    exact relative

theorem components_dir : components (dir p) = reduce false (Text.pieces above '/') := by
  obtain ⟨before, some_text, relative_above⟩ := exists_before_slash relative whole
  rw [dir, components_clean, before, components, isAbs_append_slash some_text, relative_above, pieces_append, reduce,
    List.foldl_append]
  rfl

theorem dir_eq_relative : dir p = ofComponents false (components (dir p)) := by
  obtain ⟨before, some_text, relative_above⟩ := exists_before_slash relative whole
  rw [dir, components_clean, clean, before, isAbs_append_slash some_text, relative_above]

include here in
theorem dir_abs_inside (proper : Proper (splitLast p).2) (inside : ".." ∉ components (dir p)) :
    dir (abs cwd p) = ofComponents true (components cwd ++ components (dir p)) := by
  have some_text : p ≠ "" := by
    rintro rfl
    exact proper.some_text (by decide)
  have joined := abs_relative here relative some_text
  have longer : cwd ++ "/" ++ p = cwd ++ "/" ++ above ++ "/" ++ (splitLast p).2 := by
    conv_lhs => rw [whole]
    simp only [String.append_assoc]
  have rooted : isAbs (cwd ++ "/" ++ p) = true := isAbs_append (isAbs_append here _) _
  obtain ⟨names, all, cleaned, directory⟩ := clean_of_last rooted longer proper
  have pieces : Text.pieces (cwd ++ "/" ++ p) '/' =
      (Text.pieces cwd '/' ++ Text.pieces above '/') ++ [(splitLast p).2] := by
    rw [longer, pieces_append, pieces_append, Text.pieces_of_not_mem proper.no_slash]
  rw [components_dir relative whole, reduce, List.mem_reverse] at inside
  rw [joined, cleaned, dir_ofComponents all, ← directory, dir_of_pieces rooted pieces, components_dir relative whole,
    List.foldl_append, foldl_push_inside _ inside, List.reverse_append, components, here, reduce, reduce]

end

theorem toList_relative {names : List String} (some_name : names ≠ []) :
    '/' :: (ofComponents false names).toList = (ofComponents true names).toList := by
  simp [ofComponents, some_name]

end Path

theorem FileTree.follow_blank (tree : FileTree) (links : Nat) (here : Location) (names : List String) :
    tree.follow links here ("" :: names) = tree.follow links here names := by
  obtain ⟨jump, same⟩ := tree.follow_eq_followNames links
  rw [same, same, followNames, if_pos (.inl rfl)]

namespace FileSystem

variable {fs : FileSystem}

theorem locate_relative {path : String} (relative : Path.isAbs path = false) (some_text : path ≠ "")
    (openable : Openable path) (links : Nat) :
    fs.locate links path = fs.tree.follow links [] (Text.pieces fs.cwd '/' ++ Text.pieces path '/') := by
  rw [locate, if_neg (by simpa using openable.1), if_neg some_text, if_neg (Nat.not_le.mpr openable.2), relative]
  rfl

theorem follow_cwd (settled : Path.clean fs.cwd = fs.cwd) (links : Nat) (names : List String) :
    fs.tree.follow links [] (Text.pieces fs.cwd '/' ++ names) =
      fs.tree.follow links [] (Path.components fs.cwd ++ names) := by
  have proper := Path.proper_of_mem_components fs.rooted
  rw [Path.eq_ofComponents_of_clean fs.rooted settled, Path.components_ofComponents proper]
  by_cases at_root : Path.components fs.cwd = []
  · rw [at_root]
    exact (fs.tree.follow_blank links [] _).trans (fs.tree.follow_blank links [] _)
  · rw [Path.pieces_ofComponents proper at_root, List.cons_append, FileTree.follow_blank]

/-- A path below the working directory leads to the same place as the path from the root. -/
theorem locate_inside (settled : Path.clean fs.cwd = fs.cwd) {names : List String} (proper : Path.AllProper names)
    (some_name : names ≠ []) (openable : Openable (Path.ofComponents true (Path.components fs.cwd ++ names)))
    (links : Nat) :
    fs.locate links (Path.ofComponents false names) =
      fs.locate links (Path.ofComponents true (Path.components fs.cwd ++ names)) := by
  have proper_whole : Path.AllProper (Path.components fs.cwd ++ names) :=
    List.forall_mem_append.mpr ⟨Path.proper_of_mem_components fs.rooted, proper⟩
  have some_whole : Path.components fs.cwd ++ names ≠ [] := List.append_ne_nil_of_right_ne_nil _ some_name
  have part : (Path.ofComponents false names).toList.Sublist
      (Path.ofComponents true (Path.components fs.cwd ++ names)).toList := by
    rw [Path.toList_ofComponents some_whole, List.flatMap_append, ← Path.toList_ofComponents some_name,
      ← Path.toList_relative some_name]
    exact (List.sublist_cons_self _ _).trans (List.sublist_append_right _ _)
  have some_text : Path.ofComponents false names ≠ "" := by
    intro same
    have pieces := Path.pieces_relative proper some_name
    rw [same] at pieces
    have blank : "" ∈ names := pieces ▸ by decide
    exact (proper "" blank).some_text rfl
  rw [locate_relative (Path.isAbs_of_proper proper false) some_text (openable.of_sublist part),
    follow_cwd settled, Path.pieces_relative proper some_name,
    locate_of_openable (Path.isAbs_ofComponents _) openable,
    Path.pieces_ofComponents proper_whole some_whole, FileTree.follow_blank]

theorem read_inside (settled : Path.clean fs.cwd = fs.cwd) {names : List String} (proper : Path.AllProper names)
    (some_name : names ≠ []) (openable : Openable (Path.ofComponents true (Path.components fs.cwd ++ names))) :
    (fs.read (Path.ofComponents false names)).toOption =
      (fs.read (Path.ofComponents true (Path.components fs.cwd ++ names))).toOption := by
  rw [read, read, locate_inside settled proper some_name openable]
  split
  · rfl
  · split <;> rfl

end FileSystem
end ScriptLoader
