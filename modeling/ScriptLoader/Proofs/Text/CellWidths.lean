import ScriptLoader.Proofs.ByteTexts
import ScriptLoader.Text.Width

/-!
Cells against characters and bytes. A text takes at most the cells of its characters one by one, and fewer
where characters that take cells are joined into one cluster. It takes at most as many cells as it has bytes,
and fewer unless every character is one byte that takes one cell.
-/

set_option autoImplicit false
namespace ScriptLoader.Text

namespace Grapheme

theorem continuation_append (context : Context) (s : List Char) :
    (continuation context s).1 ++ (continuation context s).2 = s := by
  induction s generalizing context with
  | nil => rfl
  | cons c rest ih =>
    rw [continuation]
    split
    · exact congrArg (c :: ·) (ih _)
    · rfl

theorem flatten_clusters (s : List Char) : (clusters s).flatten = s := by
  induction s using clusters.induct with
  | case1 => simp [clusters]
  | case2 c rest ih => rw [clusters, List.flatten_cons, ih, List.cons_append, continuation_append]

/-- Characters without any class of their own stand alone. -/
theorem clusters_of_other {s : List Char} (other : ∀ c ∈ s, classify c = .other) : clusters s = s.map ([·]) := by
  induction s with
  | nil => simp [clusters]
  | cons c rest ih =>
    obtain ⟨first, others⟩ := List.forall_mem_cons.mp other
    have ends : continuation (start (classify c)) rest = ([], rest) := by
      cases rest with
      | nil => rfl
      | cons next more =>
        rw [continuation, first, (List.forall_mem_cons.mp others).1]
        rfl
    rw [clusters, ends, ih others, List.map_cons]

end Grapheme

def spread (s : List Char) : Nat := (s.map charWidth).foldr (· + ·) 0

theorem spread_cons (c : Char) (s : List Char) : spread (c :: s) = charWidth c + spread s := rfl

theorem spread_append (s t : List Char) : spread (s ++ t) = spread s + spread t := by
  induction s with
  | nil => exact (Nat.zero_add _).symm
  | cons c rest ih => rw [List.cons_append, spread_cons, spread_cons, ih, Nat.add_assoc]

def OneCelled (cluster : List Char) : Prop := (cluster.filter (0 < charWidth ·)).length ≤ 1

theorem spread_eq_zero_iff {s : List Char} : spread s = 0 ↔ s.filter (0 < charWidth ·) = [] := by
  induction s with
  | nil => exact iff_of_true rfl rfl
  | cons c rest ih =>
    rw [spread_cons, Nat.add_eq_zero_iff, ih, List.filter_cons]
    by_cases takes : 0 < charWidth c
    · simp [takes, Nat.ne_of_gt takes]
    · simp [Nat.eq_zero_of_not_pos takes]

theorem clusterWidth_cons (c : Char) (rest : List Char) :
    clusterWidth (c :: rest) = if 0 < charWidth c then charWidth c else clusterWidth rest := by
  unfold clusterWidth
  rw [List.map_cons, List.find?_cons]
  by_cases takes : 0 < charWidth c
  · simp [takes]
  · simp [takes]

/-- A cluster is as wide as the first of its characters, and so as wide as all if the others take no cells. -/
theorem clusterWidth_spread (cluster : List Char) :
    clusterWidth cluster ≤ spread cluster ∧ (clusterWidth cluster = spread cluster ↔ OneCelled cluster) := by
  unfold OneCelled
  induction cluster with
  | nil => exact ⟨Nat.le_refl _, by simp [clusterWidth, spread]⟩
  | cons c rest ih =>
    rw [clusterWidth_cons, spread_cons, List.filter_cons]
    by_cases takes : 0 < charWidth c
    · rw [if_pos takes, if_pos (decide_eq_true takes), List.length_cons]
      refine ⟨Nat.le_add_right _ _, ?_⟩
      rw [Nat.left_eq_add, spread_eq_zero_iff, ← List.length_eq_zero_iff]
      omega
    · simp [Nat.eq_zero_of_not_pos takes, ih]

/-- No cluster joins characters of which more than one takes cells. -/
def Unjoined (s : List Char) : Prop := ∀ cluster ∈ Grapheme.clusters s, OneCelled cluster

theorem unjoined_of_other {s : List Char} (other : ∀ c ∈ s, Grapheme.classify c = .other) : Unjoined s := by
  intro cluster mem
  rw [Grapheme.clusters_of_other other] at mem
  obtain ⟨c, -, rfl⟩ := List.mem_map.mp mem
  exact List.length_filter_le _ _

theorem width_clusters (clusters : List (List Char)) :
    (clusters.map clusterWidth).foldr (· + ·) 0 ≤ spread clusters.flatten ∧
      ((clusters.map clusterWidth).foldr (· + ·) 0 = spread clusters.flatten ↔
      ∀ cluster ∈ clusters, OneCelled cluster) := by
  induction clusters with
  | nil => exact ⟨Nat.le_refl _, by simp [spread]⟩
  | cons cluster rest ih =>
    obtain ⟨below, alike⟩ := clusterWidth_spread cluster
    obtain ⟨later_below, later_alike⟩ := ih
    rw [List.map_cons, List.foldr_cons, List.flatten_cons, spread_append, List.forall_mem_cons, ← alike, ← later_alike]
    omega

theorem width_le_spread (s : List Char) : width s ≤ spread s := by
  have le := (width_clusters (Grapheme.clusters s)).1
  rwa [Grapheme.flatten_clusters] at le

theorem width_eq_spread_iff {s : List Char} : width s = spread s ↔ Unjoined s := by
  have alike := (width_clusters (Grapheme.clusters s)).2
  rwa [Grapheme.flatten_clusters] at alike

-- The tables are looked through as lists, which the kernel does much faster than as arrays.
theorem covers_toList (ranges : Array (Nat × Nat)) (c : Char) :
    covers ranges c = ranges.toList.any fun range => range.1 ≤ c.toNat && c.toNat ≤ range.2 :=
  (Array.any_toList ..).symm

theorem bounds_of_covers {ranges : Array (Nat × Nat)} {c : Char} (held : covers ranges c = true) :
    ∃ range ∈ ranges.toList, range.1 ≤ c.toNat ∧ c.toNat ≤ range.2 := by
  rw [covers_toList] at held
  obtain ⟨range, mem, inside⟩ := List.any_eq_true.mp held
  exact ⟨range, mem, by simpa using inside⟩

theorem not_covers_of_high {ranges : Array (Nat × Nat)} {c : Char} {bound : Nat}
    (low : ranges.toList.all (fun range => range.2 < bound) = true) (high : bound ≤ c.toNat) :
    covers ranges c = false := by
  rw [← Bool.not_eq_true]
  intro held
  obtain ⟨range, mem, -, last⟩ := bounds_of_covers held
  have below : range.2 < bound := of_decide_eq_true (List.all_eq_true.mp low range mem)
  omega

/-- One byte that takes one cell: a letter, digit or sign of ASCII, or a byte that belongs to no character. -/
def isSingle (c : Char) : Bool := Utf8.isStray c || (0x20 ≤ c.toNat && c.toNat < 0x7F)

theorem charWidth_le_two (c : Char) : charWidth c ≤ 2 := by
  unfold charWidth
  repeat' split
  all_goals decide

theorem charWidth_le_one {c : Char} (low : c.toNat < 0x1100) : charWidth c ≤ 1 := by
  have not_wide : covers wideRanges c = false := by
    rw [← Bool.not_eq_true]
    intro held
    obtain ⟨range, mem, first, -⟩ := bounds_of_covers held
    have above : wideRanges.toList.all (fun range => 0x1100 ≤ range.1) = true := by decide +kernel
    have later : 0x1100 ≤ range.1 := of_decide_eq_true (List.all_eq_true.mp above range mem)
    omega
  unfold charWidth
  rw [not_wide]
  simp only [Bool.false_eq_true, if_false]
  repeat' split
  all_goals decide

theorem charWidth_of_isStray {c : Char} (stray : Utf8.isStray c = true) : charWidth c = 1 := by
  have high : 0x10DC80 ≤ c.toNat := of_decide_eq_true (Bool.and_eq_true_iff.mp stray).1
  have uncovered : covers invisibleRanges c = false ∧ covers combiningRanges c = false ∧ covers wideRanges c = false :=
    ⟨not_covers_of_high (by decide +kernel) high, not_covers_of_high (by decide +kernel) high,
      not_covers_of_high (by decide +kernel) high⟩
  have visible : isControl c = false := by
    simp [isControl]
    omega
  unfold charWidth
  simp [visible, uncovered]

theorem charWidth_of_ascii {c : Char} (ascii : c.toNat < 0x80) :
    charWidth c = if 0x20 ≤ c.toNat ∧ c.toNat < 0x7F then 1 else 0 := by
  have control : isControl c = true ↔ ¬ (0x20 ≤ c.toNat ∧ c.toNat < 0x7F) := by
    simp [isControl]
    omega
  unfold charWidth
  by_cases visible : 0x20 ≤ c.toNat ∧ c.toNat < 0x7F
  · rw [if_neg (by rw [control]; exact not_not.mpr visible), if_pos (by omega), if_pos visible]
  · rw [if_pos (control.mpr visible), if_neg visible]

/-- No character takes more cells than it has bytes. -/
theorem charWidth_size (c : Char) :
    charWidth c ≤ (Utf8.encodeChar c).length ∧ (charWidth c = (Utf8.encodeChar c).length ↔ isSingle c = true) := by
  by_cases stray : Utf8.isStray c = true
  · rw [charWidth_of_isStray stray, Utf8.encodeChar, if_pos stray, isSingle, stray]
    exact ⟨Nat.le_refl _, iff_of_true rfl rfl⟩
  · have single : isSingle c = true ↔ 0x20 ≤ c.toNat ∧ c.toNat < 0x7F := by simp [isSingle, stray]
    rw [Utf8.encodeChar, if_neg stray, String.length_utf8EncodeChar, single]
    by_cases ascii : c.toNat < 0x80
    · have one : c.utf8Size = 1 := Char.utf8Size_eq_one_iff.mpr (UInt32.le_iff_toNat_le.mpr (Nat.le_of_lt_succ ascii))
      rw [charWidth_of_ascii ascii, one]
      split
      next visible => exact ⟨Nat.le_refl _, iff_of_true rfl visible⟩
      next hidden => exact ⟨Nat.zero_le _, iff_of_false (by decide) hidden⟩
    · -- Two bytes reach up to U+07FF, where nothing is wide yet; from three bytes on there are more of them than cells.
      have fewer : charWidth c < c.utf8Size := by
        have narrow := charWidth_le_two c
        rcases c.utf8Size_eq with one | two | three | four
        · exact absurd (Nat.lt_succ_of_le (UInt32.le_iff_toNat_le.mp (Char.utf8Size_eq_one_iff.mp one))) ascii
        · have below : c.toNat ≤ 0x7FF := UInt32.le_iff_toNat_le.mp (Char.utf8Size_eq_two_iff.mp two).2
          have single := charWidth_le_one (Nat.lt_of_le_of_lt below (by decide))
          omega
        · omega
        · omega
      exact ⟨Nat.le_of_lt fewer, iff_of_false (Nat.ne_of_lt fewer) (by omega)⟩

theorem size_cons (c : Char) (s : List Char) :
    Utf8.size (String.ofList (c :: s)) = (Utf8.encodeChar c).length + Utf8.size (String.ofList s) := by
  simp [Utf8.size, Utf8.encode]

theorem spread_size (s : List Char) : spread s ≤ Utf8.size (String.ofList s) ∧
    (spread s = Utf8.size (String.ofList s) ↔ ∀ c ∈ s, isSingle c = true) := by
  induction s with
  | nil => exact ⟨Nat.zero_le _, iff_of_true rfl (by simp)⟩
  | cons c rest ih =>
    obtain ⟨below, alike⟩ := charWidth_size c
    obtain ⟨later_below, later_alike⟩ := ih
    rw [spread_cons, size_cons, List.forall_mem_cons, ← alike, ← later_alike]
    omega

theorem classify_of_isSingle {c : Char} (single : isSingle c = true) : Grapheme.classify c = .other := by
  have other : ∀ d : Char, isSingle d = false → c ≠ d := by
    rintro d not_single rfl
    exact Bool.false_ne_true (not_single.symm.trans single)
  unfold Grapheme.classify
  dsimp only
  rw [if_neg (other '\r' (by decide)), if_neg (other '\n' (by decide))]
  rcases Bool.or_eq_true_iff.mp single with stray | ascii
  · -- The characters that stand for bytes lie beyond all tables.
    have high : 0x10DC80 ≤ c.toNat := of_decide_eq_true (Bool.and_eq_true_iff.mp stray).1
    have uncovered : ∀ ranges ∈ [Grapheme.controlRanges, Grapheme.extendRanges,
      Grapheme.spacingRanges, Grapheme.prependRanges,
        Grapheme.pictographRanges], covers ranges c = false := by
      have low : [Grapheme.controlRanges, Grapheme.extendRanges, Grapheme.spacingRanges, Grapheme.prependRanges,
        Grapheme.pictographRanges].all (fun ranges => ranges.toList.all fun range => range.2 < 0x10DC80) =
        true := by decide +kernel
      exact fun ranges mem => not_covers_of_high (List.all_eq_true.mp low ranges mem) high
    simp only [List.forall_mem_cons] at uncovered
    rw [if_neg (by omega), if_neg (by omega), if_neg (by omega), if_neg (by omega),
      if_neg (by omega), if_neg (by omega), if_neg (by omega), if_neg (by omega)]
    simp [uncovered]
  · have visible : 0x20 ≤ c.toNat ∧ c.toNat < 0x7F := by simpa using ascii
    rw [if_neg (by omega), if_pos visible.2]

/-- A text takes as many cells as it has bytes only if each of its characters does. -/
theorem width_eq_size_iff {s : List Char} : width s = Utf8.size (String.ofList s) ↔ ∀ c ∈ s, isSingle c = true := by
  have below := width_le_spread s
  obtain ⟨bytes, alike⟩ := spread_size s
  constructor
  · intro same
    exact alike.mp (by omega)
  · intro single
    have apart : Unjoined s := unjoined_of_other fun c mem => classify_of_isSingle (single c mem)
    rw [width_eq_spread_iff.mpr apart, alike.mpr single]

theorem width_le_size (s : List Char) : width s ≤ Utf8.size (String.ofList s) :=
  Nat.le_trans (width_le_spread s) (spread_size s).1

end ScriptLoader.Text
