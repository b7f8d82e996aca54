import ScriptLoader.Proofs.Locations

/-!
Paths without links. Where a path is followed name by name, each name is looked up by a path that has no link
in it. Such a path must be short enough for the system, and then it leads to the place it was found for. So a
path without links is its own canonical form.
-/

set_option autoImplicit false
namespace ScriptLoader

/-! ## The size of paths -/

namespace Path
variable {names other : List String}

theorem ofComponents_sublist (part : names.Sublist other) :
    (ofComponents true names).toList.Sublist (ofComponents true other).toList := by
  by_cases nothing : other = []
  · rw [nothing] at part ⊢
    rw [List.sublist_nil.mp part]
  · rw [toList_ofComponents nothing]
    by_cases none_left : names = []
    · obtain ⟨first, rest, rfl⟩ := List.exists_cons_of_ne_nil nothing
      rw [none_left, List.flatMap_cons]
      exact ((List.nil_sublist _).cons_cons '/').trans (List.sublist_append_left _ _)
    · rw [toList_ofComponents none_left]
      exact part.flatMap _

theorem exists_after_slash {p : String} (rooted : isAbs p = true) :
    ∃ rest, p = "/" ++ rest ∧ Text.pieces p '/' = "" :: Text.pieces rest '/' := by
  rw [isAbs, beq_iff_eq, List.head?_eq_some_iff] at rooted
  obtain ⟨rest, chars⟩ := rooted
  refine ⟨String.ofList rest, String.toList_inj.mp (by simp [chars]), ?_⟩
  rw [Text.pieces, chars, Text.split, if_pos rfl, List.map_cons, Text.pieces, String.toList_ofList]

/-- Names of a rooted path spell no more than the path. -/
theorem ofComponents_sublist_of_pieces {p : String} (rooted : isAbs p = true)
    (part : names.Sublist (Text.pieces p '/').tail) : (ofComponents true names).toList.Sublist p.toList := by
  obtain ⟨rest, whole, pieces⟩ := exists_after_slash rooted
  have spelled : ofComponents true (Text.pieces p '/').tail = p := by
    rw [pieces, List.tail_cons, ofComponents, if_pos rfl, Text.intercalate_pieces, ← whole]
  rw [← spelled]
  exact ofComponents_sublist part

end Path

namespace FileSystem

theorem refusal?_eq_none {path : String} : refusal? path = none ↔ Openable path := by
  unfold refusal? Openable
  by_cases null : '\x00' ∈ path.toList
  · simp [null]
  · simp [null]

theorem stepUp_sublist (spelled : List String) : (stepUp spelled).Sublist (".." :: spelled) := by
  unfold stepUp
  split
  · split
    · exact List.Sublist.refl _
    · exact (List.sublist_cons_self _ _).cons _
  · exact List.Sublist.refl _

/-- One name taken away leaves a part of what is spelled after going up. -/
theorem tail_sublist_stepUp {here spelled : List String} (part : here.Sublist spelled) :
    here.tail.Sublist (stepUp spelled) := by
  unfold stepUp
  split
  · split
    · exact ((List.tail_sublist here).trans part).cons _
    · exact part.tail
  · exact ((List.tail_sublist here).trans part).cons _

/-! ## Names looked up by paths without links -/

section
variable {tree : FileTree} {jump : List String → Location → List String → Except FileProblem Location}

theorem resolveNames_cons {name : String} (usable : FileTree.Usable name) {spelled : List String}
    (openable : Openable (Path.ofComponents true (name :: spelled).reverse)) (here : Location) (rest : List String) :
    resolveNames tree jump spelled here (name :: rest) =
      match tree.entry? (name :: here) with
      | none => .error .notFound
      | some .directory => resolveNames tree jump (name :: spelled) (name :: here) rest
      | some (.file _) => if rest.isEmpty then .ok (name :: here) else .error .notDirectory
      | some (.link target) =>
        if Path.isAbs target then jump [] [] (Text.pieces target '/' ++ rest)
        else jump spelled here (Text.pieces target '/' ++ rest) := by
  have short : ¬ FileTree.maxNameSize < Text.Utf8.size name := Nat.not_lt.mpr usable.short
  have something : ¬ (name = "" ∨ name = ".") := by simp [usable.some_text, usable.not_here]
  rewrite [resolveNames, if_neg something, if_neg usable.not_up, refusal?_eq_none.mpr openable]
  dsimp only
  rewrite [if_neg short]
  rfl

theorem resolveFrom_eq_resolveNames (tree : FileTree) (links : Nat) :
    ∃ jump, resolveFrom tree links = resolveNames tree jump := by
  cases links with
  | zero => exact ⟨_, rfl⟩
  | succ links => exact ⟨_, rfl⟩

/-- What is found by paths without links is found by following the names. -/
theorem followNames_of_resolveNames {jump' : Location → List String → Except FileProblem Location}
    (jumps : ∀ spelled here names location, jump spelled here names = .ok location → jump' here names = .ok location)
    {spelled names : List String} {here location : Location}
    (found : resolveNames tree jump spelled here names = .ok location) :
    tree.followNames jump' here names = .ok location := by
  induction names generalizing spelled here with
  | nil => exact found
  | cons name rest ih =>
    rw [resolveNames] at found
    rw [FileTree.followNames]
    split at found
    · rw [if_pos ‹_›]
      exact ih found
    · rw [if_neg ‹_›]
      split at found
      · rw [if_pos ‹_›]
        exact ih found
      · rw [if_neg ‹_›]
        split at found
        · cases found
        · split at found
          · cases found
          · rw [if_neg ‹_›]
            cases held : tree.entry? (name :: here) with
            | none => simp [held] at found
            | some entry =>
              cases entry with
              | directory =>
                rw [held] at found
                exact ih found
              | file content =>
                rw [held] at found
                exact found
              | link target =>
                rw [held] at found
                dsimp only at found ⊢
                split at found
                · rw [if_pos ‹_›]
                  exact jumps _ _ _ _ found
                · rw [if_neg ‹_›]
                  exact jumps _ _ _ _ found

theorem follow_of_resolveFrom {links : Nat} {spelled names : List String} {here location : Location}
    (found : resolveFrom tree links spelled here names = .ok location) :
    tree.follow links here names = .ok location := by
  induction links generalizing spelled here names location with
  | zero => exact followNames_of_resolveNames (fun _ _ _ _ stuck => by cases stuck) found
  | succ links ih => exact followNames_of_resolveNames (fun _ _ _ _ led => ih led) found

/-- The path of a place that was found so can be opened: its names are among those that were spelled on the way. -/
theorem openable_of_resolveNames {spelled names : List String} {here location : Location}
    (jumps : ∀ {spelled here names location}, List.Sublist here spelled → Openable (FileTree.pathOf here) →
      jump spelled here names = .ok location → Openable (FileTree.pathOf location))
    (part : here.Sublist spelled) (openable : Openable (FileTree.pathOf here))
    (found : resolveNames tree jump spelled here names = .ok location) : Openable (FileTree.pathOf location) := by
  induction names generalizing spelled here with
  | nil =>
    cases found
    exact openable
  | cons name rest ih =>
    rw [resolveNames] at found
    split at found
    · exact ih part openable found
    · split at found
      · have shorter : (Path.ofComponents true here.tail.reverse).toList.Sublist (FileTree.pathOf here).toList :=
          Path.ofComponents_sublist (List.reverse_sublist.mpr (List.tail_sublist here))
        exact ih (tail_sublist_stepUp part) (openable.of_sublist shorter) found
      · split at found
        · cases found
        · rename_i taken
          have deeper : Openable (FileTree.pathOf (name :: here)) := by
            refine (refusal?_eq_none.mp taken).of_sublist (Path.ofComponents_sublist ?_)
            exact List.reverse_sublist.mpr (part.cons_cons name)
          split at found
          · cases found
          · split at found
            · cases found
            · exact ih (part.cons_cons name) deeper found
            · split at found
              · cases found
                exact deeper
              · cases found
            · split at found
              · exact jumps (List.Sublist.refl []) (by decide) found
              · exact jumps part openable found

theorem openable_of_resolveFrom {links : Nat} {spelled names : List String} {here location : Location}
    (part : here.Sublist spelled) (openable : Openable (FileTree.pathOf here))
    (found : resolveFrom tree links spelled here names = .ok location) : Openable (FileTree.pathOf location) := by
  induction links generalizing spelled here names location with
  | zero => exact openable_of_resolveNames (fun _ _ stuck => by cases stuck) part openable found
  | succ links ih => exact openable_of_resolveNames ih part openable found

/-- The names of a directory lead to it and spell its path. -/
theorem resolveNames_of_walkable {location : Location} (walkable : FileTree.Walkable tree location)
    (openable : Openable (FileTree.pathOf location)) (rest : List String) :
    resolveNames tree jump [] [] (location.reverse ++ rest) = resolveNames tree jump location location rest := by
  induction walkable generalizing rest with
  | root => rfl
  | @down name above _ usable directory ih =>
    have shorter : (Path.ofComponents true above.reverse).toList.Sublist (FileTree.pathOf (name :: above)).toList :=
      Path.ofComponents_sublist (List.reverse_sublist.mpr (List.sublist_cons_self name above))
    rw [List.reverse_cons, List.append_assoc, List.singleton_append, ih (openable.of_sublist shorter),
      resolveNames_cons usable openable, directory]

theorem resolveFrom_pathOf {location : Location} (reached : FileTree.Reached tree location)
    (openable : Openable (FileTree.pathOf location)) (links : Nat) :
    resolveFrom tree links [] [] (Text.pieces (FileTree.pathOf location) '/') = .ok location := by
  obtain ⟨jump, same⟩ := resolveFrom_eq_resolveNames tree links
  rw [same]
  by_cases at_root : location = []
  · subst at_root
    have pieces_root : Text.pieces (FileTree.pathOf []) '/' = ["", ""] := by decide
    rw [pieces_root]
    rfl
  · rw [FileTree.pathOf, Path.pieces_ofComponents reached.proper_reverse (by simpa using at_root)]
    -- The empty name before the first slash leads nowhere else.
    have led : resolveNames tree jump [] [] location.reverse = .ok location := by
      cases reached with
      | directory walkable =>
        rw [← List.append_nil location.reverse, resolveNames_of_walkable walkable openable]
        rfl
      | @file name above content walkable usable file =>
        have shorter : (Path.ofComponents true above.reverse).toList.Sublist (FileTree.pathOf (name :: above)).toList :=
          Path.ofComponents_sublist (List.reverse_sublist.mpr (List.sublist_cons_self name above))
        rw [List.reverse_cons, resolveNames_of_walkable walkable (openable.of_sublist shorter),
          resolveNames_cons usable openable, file]
        rfl
    exact led

/-- Without links, names are looked up by paths that are spelled with these names alone. -/
theorem resolveNames_of_followNames (plain : tree.WithoutLinks)
    {jump' : Location → List String → Except FileProblem Location} {all : List String}
    (openable : ∀ names : List String, names.Sublist all → Openable (Path.ofComponents true names))
    {spelled names : List String} {here location : Location} (part : (spelled.reverse ++ names).Sublist all)
    (found : tree.followNames jump' here names = .ok location) :
    resolveNames tree jump spelled here names = .ok location := by
  induction names generalizing spelled here with
  | nil => exact found
  | cons name rest ih =>
    have without : (spelled.reverse ++ rest).Sublist all :=
      ((List.sublist_cons_self name rest).append_left spelled.reverse).trans part
    have with_name : ((name :: spelled).reverse ++ rest).Sublist all := by
      rwa [List.reverse_cons, List.append_assoc, List.singleton_append]
    rw [FileTree.followNames] at found
    rw [resolveNames]
    split at found
    · rw [if_pos ‹_›]
      exact ih without found
    · rw [if_neg ‹_›]
      split at found
      · rename_i up
        rw [if_pos up]
        refine ih ?_ found
        rw [up] at with_name
        exact ((List.reverse_sublist.mpr (stepUp_sublist spelled)).append_right rest).trans with_name
      · rw [if_neg ‹_›]
        have taken : refusal? (Path.ofComponents true (name :: spelled).reverse) = none :=
          refusal?_eq_none.mpr (openable _ ((List.sublist_append_left _ rest).trans with_name))
        rw [taken]
        dsimp only
        split at found
        · cases found
        · rw [if_neg ‹_›]
          cases held : tree.entry? (name :: here) with
          | none => simp [held] at found
          | some entry =>
            cases entry with
            | link target => exact absurd held (plain.entry?_ne_link _ _)
            | directory =>
              rw [held] at found
              exact ih with_name found
            | file content =>
              rw [held] at found
              exact found

end

/-! ## Paths without links -/

variable {fs : FileSystem} {path : String} {location : Location}

theorem namesOf_of_isAbs (rooted : Path.isAbs path = true) : fs.namesOf path = Text.pieces path '/' := if_pos rooted

theorem no_slash_namesOf (fs : FileSystem) (path : String) : ∀ name ∈ fs.namesOf path, '/' ∉ name.toList := by
  intro name mem
  unfold namesOf at mem
  split at mem
  · exact Text.not_mem_of_mem_pieces mem
  · rcases List.mem_append.mp mem with mem | mem
    · exact Text.not_mem_of_mem_pieces mem
    · exact Text.not_mem_of_mem_pieces mem

theorem follow_of_resolve (found : fs.resolve path = .ok location) :
    fs.tree.follow maxRealLinks [] (fs.namesOf path) = .ok location :=
  follow_of_resolveFrom found

theorem reached_of_resolve (found : fs.resolve path = .ok location) : FileTree.Reached fs.tree location :=
  FileTree.reached_of_follow .root (fs.no_slash_namesOf path) (follow_of_resolve found)

theorem openable_of_resolve (found : fs.resolve path = .ok location) : Openable (FileTree.pathOf location) :=
  openable_of_resolveFrom (List.Sublist.refl []) (by decide) found

theorem resolve_pathOf (reached : FileTree.Reached fs.tree location) (openable : Openable (FileTree.pathOf location)) :
    fs.resolve (FileTree.pathOf location) = .ok location := by
  have rooted : Path.isAbs (FileTree.pathOf location) = true := Path.isAbs_ofComponents _
  rw [resolve, namesOf_of_isAbs rooted, resolveFrom_pathOf reached openable]

theorem resolve_of_locate (plain : fs.tree.WithoutLinks) {links : Nat} (rooted : Path.isAbs path = true)
    (found : fs.locate links path = .ok location) : fs.resolve path = .ok location := by
  have openable : Openable path := by
    by_contra closed
    obtain ⟨problem, failed⟩ : ∃ problem, fs.locate links path = .error problem := locate_of_not_openable closed links
    rw [failed] at found
    cases found
  have followed := follow_of_locate rooted found
  obtain ⟨jump, same⟩ := fs.tree.follow_eq_followNames links
  obtain ⟨jump', same'⟩ := resolveFrom_eq_resolveNames fs.tree maxRealLinks
  have pieces : Text.pieces path '/' = "" :: (Text.pieces path '/').tail := by
    obtain ⟨rest, -, pieces⟩ := Path.exists_after_slash rooted
    rw [pieces, List.tail_cons]
  rw [same, pieces, FileTree.followNames, if_pos (.inl rfl)] at followed
  rw [resolve, namesOf_of_isAbs rooted, same', pieces, resolveNames, if_pos (.inl rfl)]
  exact resolveNames_of_followNames plain
    (fun names part => openable.of_sublist (Path.ofComponents_sublist_of_pieces rooted part))
    (List.Sublist.refl _) followed

theorem realPath?_eq_some {real : String} :
    fs.realPath? path = some real ↔ ∃ location, fs.resolve path = .ok location ∧ FileTree.pathOf location = real := by
  unfold realPath?
  cases fs.resolve path <;> simp

theorem realPath?_of_resolve (found : fs.resolve path = .ok location) :
    fs.realPath? path = some (FileTree.pathOf location) :=
  realPath?_eq_some.mpr ⟨location, found, rfl⟩

theorem canonical_canonical (fs : FileSystem) (path : String) :
    fs.canonical (fs.canonical path) = fs.canonical path := by
  cases found : fs.resolve (fs.abs path) with
  | error problem =>
    have nowhere : fs.canonical path = fs.abs path := by simp [canonical, realPath?, found]
    have again : fs.abs (fs.abs path) = fs.abs path := Path.abs_abs fs.rooted path
    rw [nowhere, canonical, again, ← canonical, nowhere]
  | ok location =>
    have real : fs.canonical path = FileTree.pathOf location := by simp [canonical, realPath?, found]
    have reached := reached_of_resolve found
    rw [real, canonical, abs_pathOf reached, realPath?_of_resolve (resolve_pathOf reached (openable_of_resolve found))]
    rfl

end FileSystem
end ScriptLoader
