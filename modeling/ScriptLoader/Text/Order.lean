import ScriptLoader.Text.Utf8

/-! Texts in order of their bytes, as the system lists names and as lists of paths are sorted. -/

set_option autoImplicit false
namespace ScriptLoader.Text.Utf8

/-- Texts of the same bytes, of which no more than one comes from `decode`, are told apart by their characters. -/
def Precedes (s t : String) : Prop := encode s < encode t ∨ encode s = encode t ∧ s < t

instance : DecidableRel Precedes :=
  fun s t => inferInstanceAs (Decidable (encode s < encode t ∨ encode s = encode t ∧ s < t))

def insertOnce (s : String) : List String → List String
  | [] => [s]
  | t :: rest => if Precedes s t then s :: t :: rest else if s = t then t :: rest else t :: insertOnce s rest

/-- The texts of a list in increasing order, each once. -/
def inOrder (texts : List String) : List String := texts.foldr insertOnce []

theorem Precedes.irrefl (s : String) : ¬ Precedes s s := by
  rintro (less | ⟨-, less⟩)
  · exact List.lt_irrefl _ less
  · exact String.lt_irrefl _ less

theorem Precedes.ne {s t : String} (before : Precedes s t) : s ≠ t := by
  rintro rfl
  exact irrefl s before

theorem Precedes.trans {s t u : String} (first : Precedes s t) (second : Precedes t u) : Precedes s u := by
  rcases first with less | ⟨same, less⟩ <;> rcases second with less' | ⟨same', less'⟩
  · exact .inl (List.lt_trans less less')
  · exact .inl (same' ▸ less)
  · exact .inl (same ▸ less')
  · exact .inr ⟨same.trans same', String.lt_trans less less'⟩

theorem precedes_of_not {s t : String} (not_before : ¬ Precedes s t) (differs : s ≠ t) : Precedes t s := by
  obtain ⟨not_less, not_same⟩ := not_or.mp not_before
  have le : encode t ≤ encode s := List.not_lt.mp not_less
  by_cases less : encode t < encode s
  · exact .inl less
  · have same : encode s = encode t := List.le_antisymm (List.not_lt.mp less) le
    refine .inr ⟨same.symm, ?_⟩
    have order : t ≤ s := String.not_lt.mp fun less => not_same ⟨same, less⟩
    exact Std.lt_of_le_of_ne order differs.symm

theorem mem_insertOnce {s t : String} {texts : List String} : t ∈ insertOnce s texts ↔ t = s ∨ t ∈ texts := by
  induction texts with
  | nil => simp [insertOnce]
  | cons first rest ih =>
    rw [insertOnce]
    split
    · simp
    · split
      · rename_i same
        simp [same]
      · simp only [List.mem_cons, ih]
        exact or_left_comm

theorem increasing_insertOnce {s : String} {texts : List String} (increasing : texts.Pairwise Precedes) :
    (insertOnce s texts).Pairwise Precedes := by
  induction texts with
  | nil => exact List.pairwise_singleton ..
  | cons first rest ih =>
    obtain ⟨least, increasing_rest⟩ := List.pairwise_cons.mp increasing
    rw [insertOnce]
    split
    · rename_i before
      refine List.pairwise_cons.mpr ⟨?_, increasing⟩
      exact List.forall_mem_cons.mpr ⟨before, fun t mem => before.trans (least t mem)⟩
    · split
      · exact increasing
      · rename_i not_before differs
        refine List.pairwise_cons.mpr ⟨?_, ih increasing_rest⟩
        intro t mem
        rcases mem_insertOnce.mp mem with rfl | mem
        · exact precedes_of_not not_before differs
        · exact least t mem

theorem mem_inOrder {t : String} {texts : List String} : t ∈ inOrder texts ↔ t ∈ texts := by
  induction texts with
  | nil => rfl
  | cons first rest ih => rw [inOrder, List.foldr_cons, mem_insertOnce, ← inOrder, ih, List.mem_cons]

theorem increasing_inOrder (texts : List String) : (inOrder texts).Pairwise Precedes := by
  induction texts with
  | nil => exact .nil
  | cons first rest ih => exact increasing_insertOnce ih

theorem nodup_inOrder (texts : List String) : (inOrder texts).Nodup := (increasing_inOrder texts).imp Precedes.ne

end ScriptLoader.Text.Utf8
