import ScriptLoader.Proofs.Locations

/-!
Text as it is shown. A text without strays is shown as it is, and so are the paths that are made of such
texts. Strays become characters that mean nothing in a path, so that a clean path stays clean when it is
shown.
-/

set_option autoImplicit false
namespace ScriptLoader

namespace Text

theorem mem_of_mem_split {α : Type} [DecidableEq α] {separator : α} {s piece : List α} {c : α}
    (found : piece ∈ split separator s) (mem : c ∈ piece) : c ∈ s := by
  induction s generalizing piece with
  | nil =>
    obtain rfl := List.mem_singleton.mp found
    exact mem
  | cons first rest ih =>
    rw [split] at found
    split at found
    · rcases List.mem_cons.mp found with rfl | later
      · cases mem
      · exact List.mem_cons_of_mem _ (ih later mem)
    · split at found
      · obtain rfl := List.mem_singleton.mp found
        exact List.mem_cons.mpr (.inl (List.mem_singleton.mp mem))
      · rename_i next others whole
        rcases List.mem_cons.mp found with rfl | later
        · rcases List.mem_cons.mp mem with rfl | mem
          · exact List.mem_cons_self
          · exact List.mem_cons_of_mem _ (ih (whole ▸ List.mem_cons_self) mem)
        · exact List.mem_cons_of_mem _ (ih (whole ▸ List.mem_cons_of_mem _ later) mem)

namespace Utf8

def isValid (s : String) : Bool := s.toList.all fun c => !isStray c

theorem isValid_iff {s : String} : isValid s = true ↔ ∀ c ∈ s.toList, isStray c = false := by
  simp [isValid]

theorem toList_shown (s : String) : (shown s).toList = s.toList.map shownChar := by
  rw [shown, String.toList_ofList]

theorem shown_of_isValid {s : String} (valid : isValid s = true) : shown s = s := by
  apply String.toList_inj.mp
  rw [toList_shown]
  refine (List.map_congr_left ?_).trans (List.map_id _)
  intro c mem
  rw [shownChar, isValid_iff.mp valid c mem]
  rfl

theorem eq_of_shownChar {c d : Char} (same : shownChar c = d) (plain : d ≠ replacement) : c = d := by
  unfold shownChar at same
  split at same
  · exact absurd same.symm plain
  · exact same

theorem eq_of_shown {s t : String} (same : shown s = t) (plain : replacement ∉ t.toList) : s = t := by
  apply String.toList_inj.mp
  subst same
  rw [toList_shown] at plain ⊢
  generalize s.toList = chars at plain ⊢
  induction chars with
  | nil => rfl
  | cons c rest ih =>
    rw [List.map_cons, List.mem_cons, not_or] at plain
    rw [List.map_cons, ← ih plain.2, ← eq_of_shownChar rfl (Ne.symm plain.1)]

end Utf8
end Text

namespace Path
open Text.Utf8

theorem mem_push {rooted : Bool} {above : List String} {component name : String}
    (mem : name ∈ push rooted above component) : name = component ∨ name ∈ above := by
  unfold push at mem
  split at mem
  · exact .inr mem
  · split at mem
    · rename_i up
      split at mem
      · split at mem
        · cases mem
        · exact .inl (up ▸ List.mem_singleton.mp mem)
      · split at mem
        · exact (List.mem_cons.mp mem).imp_left fun same => up ▸ same
        · exact .inr (List.mem_cons_of_mem _ mem)
    · exact List.mem_cons.mp mem

theorem mem_foldl_push {rooted : Bool} {parts above : List String} {name : String}
    (mem : name ∈ parts.foldl (push rooted) above) : name ∈ parts ∨ name ∈ above := by
  induction parts generalizing above with
  | nil => exact .inr mem
  | cons part rest ih =>
    rcases ih mem with later | now
    · exact .inl (List.mem_cons_of_mem _ later)
    · rcases mem_push now with rfl | before
      · exact .inl List.mem_cons_self
      · exact .inr before

theorem mem_of_mem_component {p name : String} {c : Char} (component : name ∈ components p) (mem : c ∈ name.toList) :
    c ∈ p.toList := by
  rcases mem_foldl_push (List.mem_reverse.mp component) with piece | nothing
  · obtain ⟨chars, found, rfl⟩ := List.mem_map.mp piece
    rw [String.toList_ofList] at mem
    exact Text.mem_of_mem_split found mem
  · cases nothing

theorem mem_intercalate {names : List String} {c : Char} (mem : c ∈ (String.intercalate "/" names).toList) :
    c = '/' ∨ ∃ name ∈ names, c ∈ name.toList := by
  induction names with
  | nil => simp at mem
  | cons first rest ih =>
    cases rest with
    | nil => exact .inr ⟨first, by simp, by simpa using mem⟩
    | cons second others =>
      have whole : String.intercalate "/" (first :: second :: others) =
          first ++ ("/" ++ String.intercalate "/" (second :: others)) := by
        apply String.toList_inj.mp
        simp
      rw [whole, String.toList_append, String.toList_append] at mem
      rcases List.mem_append.mp mem with here | later
      · exact .inr ⟨first, by simp, here⟩
      · rcases List.mem_append.mp later with slash | later
        · exact .inl (by simpa using slash)
        · rcases ih later with slash | ⟨name, found, mem⟩
          · exact .inl slash
          · exact .inr ⟨name, List.mem_cons_of_mem _ found, mem⟩

theorem mem_clean {p : String} {c : Char} (mem : c ∈ (clean p).toList) : c = '/' ∨ c = '.' ∨ c ∈ p.toList := by
  have of_names : c ∈ (String.intercalate "/" (components p)).toList → c = '/' ∨ c = '.' ∨ c ∈ p.toList := by
    intro mem
    rcases mem_intercalate mem with slash | ⟨name, component, mem⟩
    · exact .inl slash
    · exact .inr (.inr (mem_of_mem_component component mem))
  unfold clean ofComponents at mem
  split at mem
  · rw [String.toList_append] at mem
    rcases List.mem_append.mp mem with slash | mem
    · exact .inl (by simpa using slash)
    · exact of_names mem
  · split at mem
    · exact .inr (.inl (by simpa using mem))
    · exact of_names mem

theorem isValid_clean {p : String} (valid : isValid p = true) : isValid (clean p) = true := by
  rw [isValid_iff] at valid ⊢
  intro c mem
  rcases mem_clean mem with rfl | rfl | mem
  · rfl
  · rfl
  · exact valid c mem

theorem isValid_join {parts : List String} (valid : ∀ part ∈ parts, isValid part = true) :
    isValid (join parts) = true := by
  unfold join
  dsimp only
  split
  · rfl
  · apply isValid_clean
    rw [isValid_iff]
    intro c mem
    rcases mem_intercalate mem with rfl | ⟨part, kept, mem⟩
    · rfl
    · exact isValid_iff.mp (valid part (List.mem_filter.mp kept).1) c mem

theorem Proper.shown {name : String} (proper : Proper name) : Proper (Text.Utf8.shown name) where
  some_text same := proper.some_text (eq_of_shown same (by decide))
  not_here same := proper.not_here (eq_of_shown same (by decide))
  not_up same := proper.not_up (eq_of_shown same (by decide))
  no_slash mem := by
    rw [toList_shown] at mem
    obtain ⟨c, mem, same⟩ := List.mem_map.mp mem
    exact proper.no_slash (eq_of_shownChar same (by decide) ▸ mem)

theorem shown_ofComponents (names : List String) :
    Text.Utf8.shown (ofComponents true names) = ofComponents true (names.map Text.Utf8.shown) := by
  have slash : ("/" : String).toList.map shownChar = "/".toList := rfl
  apply String.toList_inj.mp
  simp only [toList_shown, ofComponents, if_true, String.toList_append, String.toList_intercalate,
    List.map_append, slash]
  congr 1
  induction names with
  | nil => rfl
  | cons first rest ih =>
    cases rest with
    | nil => simp [toList_shown]
    | cons second others =>
      simp only [List.map_cons, List.intercalate_cons_cons, List.map_append, slash, toList_shown] at ih ⊢
      rw [ih]

theorem clean_shown {p : String} (rooted : isAbs p = true) (settled : clean p = p) :
    isAbs (Text.Utf8.shown p) = true ∧ clean (Text.Utf8.shown p) = Text.Utf8.shown p := by
  rw [eq_ofComponents_of_clean rooted settled, shown_ofComponents]
  refine ⟨isAbs_ofComponents _, clean_ofComponents ?_⟩
  intro name mem
  obtain ⟨own, component, rfl⟩ := List.mem_map.mp mem
  exact (proper_of_mem_components rooted own component).shown

end Path
end ScriptLoader
