import ScriptLoader.Diagnostic.Format
import ScriptLoader.Proofs.Server.ResolvedPaths

/-!
Paths as diagnostics show them. Whether a path leads out of the working directory is read off the text of the
relative path, so that a name below the directory which begins with two dots is taken for a way out.
-/

set_option autoImplicit false
namespace ScriptLoader

namespace Path

/-- Two dots in front of a path are two dots in front of its first name: a name of one letter is no dot. -/
theorem startsWith_dots_relative {name : String} (proper : Proper name) (others : List String) :
    Text.startsWith (ofComponents false (name :: others)) ".." = Text.startsWith name ".." := by
  obtain ⟨more, chars⟩ : ∃ more, (ofComponents false (name :: others)).toList = name.toList ++ more := by
    rw [ofComponents_relative (List.cons_ne_nil _ _)]
    cases others with
    | nil => exact ⟨[], by simp⟩
    | cons next rest =>
      refine ⟨'/' :: (String.intercalate "/" (next :: rest)).toList, ?_⟩
      rw [String.intercalate_cons_of_ne_nil (List.cons_ne_nil _ _)]
      simp
  have some_text : name.toList ≠ [] := by simpa using proper.some_text
  have not_here : name.toList ≠ ['.'] := fun same => proper.not_here (String.toList_inj.mp same)
  rw [Text.startsWith, Text.startsWith, chars]
  generalize name.toList = letters at some_text not_here
  cases letters with
  | nil => exact absurd rfl some_text
  | cons first later =>
    cases later with
    | nil =>
      have other : first ≠ '.' := fun same => not_here (same ▸ rfl)
      simp [List.isPrefixOf, Ne.symm other]
    | cons second rest => simp [List.isPrefixOf]

end Path

namespace Diagnostic
open ScriptLoader.Path

/-- A path is the directory, or lies below it by names of which the first does not begin with two dots. -/
def ShownShort (cwd path : String) : Prop :=
  ∃ names, AllProper names ∧ path = Server.below cwd names ∧ ∀ name ∈ names.head?, Text.startsWith name ".." = false

theorem startsWith_dots_of_short {names : List String} (proper : AllProper names)
    (plain : ∀ name ∈ names.head?, Text.startsWith name ".." = false) :
    Text.startsWith (ofComponents false names) ".." = false := by
  cases names with
  | nil => rfl
  | cons name others =>
    rw [startsWith_dots_relative (proper name List.mem_cons_self)]
    exact plain name rfl

section
variable {cwd : String} (rooted : isAbs cwd = true) (settled : clean cwd = cwd)
include rooted settled

theorem displayPath_below {names : List String} (proper : AllProper names)
    (plain : ∀ name ∈ names.head?, Text.startsWith name ".." = false) :
    displayPath cwd (Server.below cwd names) = ofComponents false names := by
  have absolute : isAbs (Server.below cwd names) = true := by
    rw [Server.below_eq rooted settled]
    exact isAbs_ofComponents _
  unfold displayPath
  rw [if_neg (by simp [ne_empty_of_isAbs rooted, ne_empty_of_isAbs absolute]), Server.below_eq rooted settled,
    rel?_inside rooted proper]
  dsimp only
  rw [startsWith_dots_of_short proper plain, if_neg Bool.false_ne_true]

theorem displayPath_of_not_short {path : String} (absolute : isAbs path = true) (short : clean path = path)
    (long : ¬ ShownShort cwd path) : displayPath cwd path = path := by
  unfold displayPath
  split
  · rfl
  split
  · rfl
  next relative seen =>
    split
    · rfl
    next not_up =>
      -- The names that lead on from the directory would make it a path that is shown short.
      rw [Bool.not_eq_true] at not_up
      obtain ⟨names, proper, inside, rfl⟩ := names_of_rel? rooted absolute seen not_up
      refine absurd ⟨names, proper, ?_, ?_⟩ long
      · rw [Server.below_eq rooted settled, ← inside]
        exact eq_ofComponents_of_clean absolute short
      · intro name first
        obtain ⟨others, rfl⟩ := List.head?_eq_some_iff.mp first
        rw [← startsWith_dots_relative (proper name List.mem_cons_self) others, not_up]

end

/-- A path is shown relative to the directory, from where it leads back to itself, if its first name below the
directory does not begin with two dots. All other paths are shown as they are. -/
theorem displayPath_relative_or_whole {cwd path : String} (rooted : isAbs cwd = true) (settled : clean cwd = cwd)
    (absolute : isAbs path = true) (short : clean path = path) :
    (ShownShort cwd path → isAbs (displayPath cwd path) = false ∧ join [cwd, displayPath cwd path] = path) ∧
    (¬ ShownShort cwd path → displayPath cwd path = path) := by
  refine ⟨?_, displayPath_of_not_short rooted settled absolute short⟩
  rintro ⟨names, proper, rfl, plain⟩
  rw [displayPath_below rooted settled proper plain]
  exact ⟨isAbs_of_proper proper false, by rw [join_relative rooted proper, Server.below_eq rooted settled]⟩

theorem displayPath_dots_further_down :
    ShownShort "/w" "/w/a/..b.ts" ∧ isAbs (displayPath "/w" "/w/a/..b.ts") = false ∧
      join ["/w", displayPath "/w" "/w/a/..b.ts"] = "/w/a/..b.ts" := by
  have short : ShownShort "/w" "/w/a/..b.ts" := ⟨["a", "..b.ts"], by decide, by decide, by decide⟩
  exact ⟨short, (displayPath_relative_or_whole (by decide) (by decide) (by decide) (by decide)).1 short⟩

/-- A name that begins with two dots keeps a path below the directory from being shortened. -/
theorem displayPath_dots_in_front :
    isAbs "/w" = true ∧ clean "/w" = "/w" ∧ clean "/w/..b/c.ts" = "/w/..b/c.ts" ∧ Server.Inside "/w" "/w/..b/c.ts" ∧
      isAbs (displayPath "/w" "/w/..b/c.ts") = true :=
  ⟨by decide, by decide, by decide, ⟨["..b", "c.ts"], by decide, by decide⟩, by decide⟩

end Diagnostic
end ScriptLoader
