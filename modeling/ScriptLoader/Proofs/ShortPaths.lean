import ScriptLoader.FileTree
import Mathlib.Data.List.Nodup
import Mathlib.Data.List.Perm.Subperm
import Mathlib.Data.Nat.Digits.Defs

/-!
Paths that can be opened have fewer than `FileSystem.maxPathSize` bytes, and so there are at most
`FileSystem.pathBound` of them. What looks at each path once comes to an end within that many steps.
-/

set_option autoImplicit false
namespace ScriptLoader

namespace Text

theorem Utf8.length_encodeChar_pos (c : Char) : 0 < (encodeChar c).length := by
  unfold encodeChar
  split
  · exact Nat.zero_lt_one
  · rw [String.length_utf8EncodeChar]
    exact c.utf8Size_pos

theorem Utf8.length_le_size (s : String) : s.toList.length ≤ size s := by
  rw [size, encode]
  induction s.toList with
  | nil => exact Nat.le_refl 0
  | cons c rest ih =>
    have first := length_encodeChar_pos c
    rw [List.flatMap_cons, List.length_append, List.length_cons]
    omega

/-- The characters of a text as digits; zero is no character, so that the number they form gives the text back. -/
def digits (s : String) : List Nat := s.toList.map fun c => c.toNat + 1

theorem digits_lt (s : String) : ∀ digit ∈ digits s, digit < 0x110001 := by
  intro digit mem
  obtain ⟨c, -, rfl⟩ := List.mem_map.mp mem
  have bounded : c.toNat < 0x110000 := by
    rcases c.valid with low | high
    · exact Nat.lt_trans low (by decide)
    · exact high.2
  exact Nat.succ_lt_succ bounded

def number (s : String) : Nat := Nat.ofDigits 0x110001 (digits s)

theorem digits_number (s : String) : Nat.digits 0x110001 (number s) = digits s := by
  refine Nat.digits_ofDigits 0x110001 (by decide) (digits s) (digits_lt s) ?_
  intro nonempty
  obtain ⟨c, -, last⟩ := List.mem_map.mp (List.getLast_mem nonempty)
  exact last ▸ Nat.succ_ne_zero _

theorem number_injective : Function.Injective number := by
  intro s t same
  have digits_eq : digits s = digits t := by rw [← digits_number, ← digits_number, same]
  have chars_eq : s.toList = t.toList := by
    refine List.map_injective_iff.mpr ?_ digits_eq
    intro a b equal
    exact Char.ext (UInt32.toNat_inj.mp (Nat.succ.inj equal))
  exact String.toList_inj.mp chars_eq

theorem number_lt {s : String} {bound : Nat} (short : s.toList.length ≤ bound) : number s < Nat.pow 0x110001 bound := by
  have bounded := Nat.ofDigits_lt_base_pow_length (by decide) (digits_lt s)
  rw [digits, List.length_map] at bounded
  exact Nat.lt_of_lt_of_le bounded (Nat.pow_le_pow_right (by decide) short)

theorem length_le_of_short {texts : List String} {bound : Nat} (nodup : texts.Nodup)
    (short : ∀ s ∈ texts, s.toList.length ≤ bound) : texts.length ≤ Nat.pow 0x110001 bound := by
  have numbered : (texts.map number).Subperm (List.range (Nat.pow 0x110001 bound)) := by
    refine (nodup.map number_injective).subperm ?_
    intro n mem
    obtain ⟨s, held, rfl⟩ := List.mem_map.mp mem
    exact List.mem_range.mpr (number_lt (short s held))
  have bounded := numbered.length_le
  rwa [List.length_map, List.length_range] at bounded

end Text

/-- Distinct paths that are short enough to be opened are no more than `FileSystem.pathBound`. -/
theorem FileSystem.length_le_pathBound {paths : List String} (nodup : paths.Nodup)
    (short : ∀ path ∈ paths, Text.Utf8.size path < maxPathSize) : paths.length ≤ pathBound := by
  have bounded : paths.length ≤ Nat.pow 0x110001 maxPathSize := by
    refine Text.length_le_of_short nodup ?_
    intro path mem
    exact Nat.le_trans (Text.Utf8.length_le_size path) (Nat.le_of_lt (short path mem))
  unfold pathBound
  exact bounded

end ScriptLoader
