import ScriptLoader.Path

/-!
Clean paths. The components that are left of a path are settled: none is empty or `.`, and `..` stands only
at the beginning of a path that is not rooted. A path made of settled components has these components,
so that cleaning a path twice is the same as cleaning it once.
-/

set_option autoImplicit false
namespace ScriptLoader

namespace Text
variable {α : Type} [DecidableEq α] {separator : α}

theorem split_of_not_mem {s : List α} (absent : separator ∉ s) : split separator s = [s] := by
  induction s with
  | nil => rfl
  | cons c rest ih =>
    have differs : c ≠ separator := fun same => absent (by simp [same])
    rw [split, if_neg differs, ih fun mem => absent (List.mem_cons_of_mem _ mem)]

theorem split_append {s : List α} (absent : separator ∉ s) (rest : List α) :
    split separator (s ++ separator :: rest) = s :: split separator rest := by
  induction s with
  | nil => simp [split]
  | cons c s ih =>
    have differs : c ≠ separator := fun same => absent (by simp [same])
    rw [List.cons_append, split, if_neg differs, ih fun mem => absent (List.mem_cons_of_mem _ mem)]

theorem not_mem_of_mem_split {s piece : List α} (found : piece ∈ split separator s) : separator ∉ piece := by
  induction s generalizing piece with
  | nil => simp_all [split]
  | cons c rest ih =>
    rw [split] at found
    split at found
    · rcases List.mem_cons.mp found with rfl | later
      · simp
      · exact ih later
    · rename_i differs
      split at found
      · simp_all [Ne.symm differs]
      · rename_i first others whole
        rcases List.mem_cons.mp found with rfl | later
        · have clear := ih (whole ▸ List.mem_cons_self)
          simp [clear, Ne.symm differs]
        · exact ih (whole ▸ List.mem_cons_of_mem _ later)

theorem split_intercalate {pieces : List (List α)} (some_piece : pieces ≠ [])
    (absent : ∀ piece ∈ pieces, separator ∉ piece) : split separator ([separator].intercalate pieces) = pieces := by
  induction pieces with
  | nil => exact absurd rfl some_piece
  | cons first rest ih =>
    cases rest with
    | nil => simpa using split_of_not_mem (absent first (by simp))
    | cons second others =>
      rw [List.intercalate_cons_cons, List.append_assoc, List.singleton_append,
        split_append (absent first (by simp)), ih (by simp) fun piece mem => absent piece (List.mem_cons_of_mem _ mem)]

theorem pieces_of_not_mem {s : String} {separator : Char} (absent : separator ∉ s.toList) :
    pieces s separator = [s] := by
  rw [pieces, split_of_not_mem absent, List.map_singleton, String.ofList_toList]

theorem not_mem_of_mem_pieces {s piece : String} {separator : Char} (found : piece ∈ pieces s separator) :
    separator ∉ piece.toList := by
  obtain ⟨chars, mem, rfl⟩ := List.mem_map.mp found
  rw [String.toList_ofList]
  exact not_mem_of_mem_split mem

end Text

namespace Path

/-- Components, innermost first, on which nothing is left to work off. -/
def Settled (rooted : Bool) : List String → Prop
  | [] => True
  | last :: above =>
    last ≠ "" ∧ last ≠ "." ∧ '/' ∉ last.toList ∧ (last = ".." → rooted = false ∧ ∀ name ∈ above, name = "..") ∧
      Settled rooted above

theorem Settled.of_append {rooted : Bool} {inner above : List String} (settled : Settled rooted (inner ++ above)) :
    Settled rooted above := by
  induction inner with
  | nil => exact settled
  | cons last inner ih => exact ih settled.2.2.2.2

theorem settled_push {rooted : Bool} {above : List String} (settled : Settled rooted above) {component : String}
    (no_slash : '/' ∉ component.toList) : Settled rooted (push rooted above component) := by
  unfold push
  split
  · exact settled
  · rename_i meant
    split
    · rename_i up
      cases above with
      | nil => cases rooted <;> simp [Settled]
      | cons last rest =>
        by_cases more : last = ".."
        · obtain ⟨unrooted, all⟩ := settled.2.2.2.1 more
          simp only [more, if_true]
          refine ⟨by decide, by decide, by decide, fun _ => ⟨unrooted, ?_⟩, more ▸ settled⟩
          intro name mem
          rcases List.mem_cons.mp mem with same | mem
          · exact same
          · exact all name mem
        · simpa [more] using settled.2.2.2.2
    · rename_i down
      exact ⟨fun same => meant (.inl same), fun same => meant (.inr same), no_slash,
        fun same => absurd same down, settled⟩

/-- Components that are settled together with those above them are all kept. -/
theorem push_of_settled {rooted : Bool} {above : List String} {component : String}
    (settled : Settled rooted (component :: above)) : push rooted above component = component :: above := by
  obtain ⟨some_text, no_dot, -, up, -⟩ := settled
  unfold push
  rw [if_neg (by simp [some_text, no_dot])]
  by_cases same : component = ".."
  · obtain ⟨unrooted, all⟩ := up same
    rw [if_pos same]
    cases above with
    | nil => simp [unrooted, same]
    | cons last rest => simp [all last (by simp), same]
  · rw [if_neg same]

theorem foldl_push_of_settled {rooted : Bool} {components : List String} (above : List String)
    (settled : Settled rooted (components.reverse ++ above)) :
    components.foldl (push rooted) above = components.reverse ++ above := by
  induction components generalizing above with
  | nil => rfl
  | cons component rest ih =>
    rw [List.reverse_cons, List.append_assoc, List.singleton_append] at settled
    rw [List.foldl_cons, push_of_settled settled.of_append, ih _ settled]
    simp

theorem reduce_of_settled {rooted : Bool} {components : List String}
    (settled : Settled rooted components.reverse) : reduce rooted components = components := by
  rw [reduce, foldl_push_of_settled [] (by simpa using settled)]
  simp

theorem settled_reduce {rooted : Bool} {components : List String}
    (no_slash : ∀ component ∈ components, '/' ∉ component.toList) :
    Settled rooted (reduce rooted components).reverse := by
  have folded : ∀ above, Settled rooted above → Settled rooted (components.foldl (push rooted) above) := by
    induction components with
    | nil => exact fun _ settled => settled
    | cons component rest ih =>
      intro above settled
      exact ih (fun name mem => no_slash name (List.mem_cons_of_mem _ mem)) _
        (settled_push settled (no_slash component (by simp)))
  simpa [reduce] using folded [] trivial

theorem settled_components (p : String) : Settled (isAbs p) (components p).reverse :=
  settled_reduce fun _ mem => Text.not_mem_of_mem_pieces mem

theorem Settled.of_mem {rooted : Bool} {names : List String} (settled : Settled rooted names) {name : String}
    (mem : name ∈ names) : name ≠ "" ∧ '/' ∉ name.toList := by
  induction names with
  | nil => cases mem
  | cons last above ih =>
    rcases List.mem_cons.mp mem with rfl | mem
    · exact ⟨settled.1, settled.2.2.1⟩
    · exact ih settled.2.2.2.2 mem

theorem pieces_intercalate {names : List String} (some_name : names ≠ [])
    (no_slash : ∀ name ∈ names, '/' ∉ name.toList) : Text.pieces (String.intercalate "/" names) '/' = names := by
  have apart : Text.split '/' (['/'].intercalate (names.map String.toList)) = names.map String.toList := by
    apply Text.split_intercalate
    · simpa using some_name
    · intro piece mem
      obtain ⟨name, listed, rfl⟩ := List.mem_map.mp mem
      exact no_slash name listed
  have whole : (String.intercalate "/" names).toList = ['/'].intercalate (names.map String.toList) := by
    rw [String.toList_intercalate]
    rfl
  rw [Text.pieces, whole, apart, List.map_map]
  simp

theorem isAbs_intercalate {names : List String} (some_text : ∀ name ∈ names, name ≠ "")
    (no_slash : ∀ name ∈ names, '/' ∉ name.toList) : isAbs (String.intercalate "/" names) = false := by
  cases names with
  | nil => rfl
  | cons first rest =>
    have head : (String.intercalate "/" (first :: rest)).toList.head? = first.toList.head? := by
      cases rest with
      | nil => simp
      | cons second others =>
        have some_head : first.toList ≠ [] := by simpa using some_text first (by simp)
        simp [List.head?_append, List.head?_eq_some_head some_head]
    rw [isAbs, head]
    have clear := no_slash first (by simp)
    cases chars : first.toList with
    | nil => rfl
    | cons c others =>
      rw [chars] at clear
      simpa using fun same : c = '/' => clear (by simp [same])

theorem isAbs_clean_eq (p : String) : isAbs (clean p) = isAbs p := by
  rw [clean]
  cases rooted : isAbs p with
  | true => exact isAbs_ofComponents _
  | false =>
    have settled := settled_components p
    rw [ofComponents]
    simp only [Bool.false_eq_true, if_false]
    split
    · rfl
    · exact isAbs_intercalate (fun name mem => (settled.of_mem (List.mem_reverse.mpr mem)).1)
        fun name mem => (settled.of_mem (List.mem_reverse.mpr mem)).2

theorem components_clean (p : String) : components (clean p) = components p := by
  have settled := settled_components p
  have no_slash : ∀ name ∈ components p, '/' ∉ name.toList :=
    fun name mem => (settled.of_mem (List.mem_reverse.mpr mem)).2
  rw [components, isAbs_clean_eq, clean]
  generalize components p = names at settled no_slash
  cases rooted : isAbs p with
  | true =>
    rw [rooted] at settled
    have whole : Text.pieces (ofComponents true names) '/' = "" :: Text.pieces (String.intercalate "/" names) '/' := by
      simp [ofComponents, Text.pieces, Text.split]
    rw [whole]
    by_cases none_left : names = []
    · subst none_left
      decide
    · rw [pieces_intercalate none_left no_slash]
      exact reduce_of_settled settled
  | false =>
    rw [rooted] at settled
    by_cases none_left : names = []
    · subst none_left
      decide
    · rw [ofComponents]
      simp only [Bool.false_eq_true, if_false, List.isEmpty_iff, none_left]
      rw [pieces_intercalate none_left no_slash]
      exact reduce_of_settled settled

theorem clean_clean (p : String) : clean (clean p) = clean p := by
  rw [clean, isAbs_clean_eq, components_clean, ← clean]

theorem abs_clean {cwd p : String} (rooted : isAbs p = true) : abs cwd (clean p) = clean p := by
  rw [abs, if_pos (isAbs_clean rooted), clean_clean]

theorem ne_empty_of_isAbs {p : String} (rooted : isAbs p = true) : p ≠ "" := by
  rintro rfl
  simp [isAbs] at rooted

theorem abs_relative {cwd p : String} (here : isAbs cwd = true) (relative : isAbs p = false) (some_text : p ≠ "") :
    abs cwd p = clean (cwd ++ "/" ++ p) := by
  simp [abs, relative, join, ne_empty_of_isAbs here, some_text]

theorem abs_abs {cwd : String} (rooted : isAbs cwd = true) (p : String) : abs cwd (abs cwd p) = abs cwd p := by
  obtain ⟨whole, rooted_whole, same⟩ : ∃ whole, isAbs whole = true ∧ abs cwd p = clean whole := by
    by_cases from_root : isAbs p = true
    · exact ⟨p, from_root, by rw [abs, if_pos from_root]⟩
    · by_cases blank : p = ""
      · exact ⟨cwd, rooted, by simp [abs, isAbs, join, ne_empty_of_isAbs rooted, blank]⟩
      · exact ⟨cwd ++ "/" ++ p, isAbs_append (isAbs_append rooted _) _,
          abs_relative rooted (by simpa using from_root) blank⟩
  rw [same, abs_clean rooted_whole]

theorem isAbs_dir {p : String} (rooted : isAbs p = true) : isAbs (dir p) = true := by
  apply isAbs_clean
  obtain ⟨rest, chars⟩ : ∃ rest, p.toList = '/' :: rest := by
    rw [isAbs] at rooted
    cases chars : p.toList with
    | nil => simp [chars] at rooted
    | cons c rest => exact ⟨rest, by simpa [chars] using rooted⟩
  -- The name does not reach to the slash at the beginning.
  have short : (p.toList.reverse.takeWhile (· ≠ '/')).length ≤ rest.length := by
    rw [chars, List.reverse_cons, List.takeWhile_append]
    split
    · simp
    · simpa using (List.takeWhile_sublist (fun c => decide (c ≠ '/')) (l := rest.reverse)).length_le
  have long : p.length = rest.length + 1 := by rw [← String.length_toList, chars, List.length_cons]
  have kept : p.length - (p.toList.reverse.takeWhile (· ≠ '/')).length =
      (rest.length - (p.toList.reverse.takeWhile (· ≠ '/')).length) + 1 := by omega
  simp only [splitLast, List.length_reverse, isAbs, String.toList_ofList, kept]
  simp [chars]

theorem isAbs_intercalate_cons {p : String} (rooted : isAbs p = true) (parts : List String) :
    isAbs (String.intercalate "/" (p :: parts)) = true := by
  cases parts with
  | nil => simpa using rooted
  | cons second others =>
    have whole : String.intercalate "/" (p :: second :: others) =
        p ++ ("/" ++ String.intercalate "/" (second :: others)) := by
      apply String.toList_inj.mp
      simp
    rw [whole]
    exact isAbs_append rooted _

theorem isAbs_join_cons {p : String} (rooted : isAbs p = true) (parts : List String) :
    isAbs (join (p :: parts)) = true := by
  have some_text : p ≠ "" := ne_empty_of_isAbs rooted
  have kept : (p :: parts).filter (· ≠ "") = p :: parts.filter (· ≠ "") :=
    List.filter_cons_of_pos (by simpa using some_text)
  rw [join, kept]
  exact isAbs_clean (isAbs_intercalate_cons rooted _)

theorem isAbs_of_mem_ancestors {p above : String} (rooted : isAbs p = true) (mem : above ∈ ancestors p) :
    isAbs above = true := by
  obtain ⟨names, -, rfl⟩ := List.mem_map.mp mem
  rw [rooted]
  exact isAbs_ofComponents _

end Path
end ScriptLoader
