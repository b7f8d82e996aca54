import ScriptLoader.Proofs.Progress.Outcomes
import Mathlib.Algebra.Order.BigOperators.Group.List
import Mathlib.Algebra.Order.Field.Basic
import Mathlib.Algebra.Order.Field.Rat

/-!
How a board moves. Events may come in any order and about any file, also those that no compilation sends. An
item that is open has the last stage before it, whatever it hears, so that the share of the work grows until
every item is final, and is the whole only then.
-/

set_option autoImplicit false
namespace ScriptLoader.Progress

/-! ## One item -/

namespace Item
variable {item later last : Item}

theorem isFinal_iff : item.isFinal = true ↔ item.status = .done ∨ item.status = .error := by
  simp [isFinal, ItemStatus.isFinal]

/-- What holds of an item at all times: as long as it is open, not all stages are behind it. -/
def Sound (item : Item) : Prop := item.isFinal = false → item.completed < Stage.compile.length

/-- What an item may become: a final one stays as it is, and no stage is taken back. -/
structure Advances (item later : Item) : Prop where
  settled : item.isFinal = true → later = item
  stages : item.stagesDone ≤ later.stagesDone
  sound : later.Sound

theorem Sound.advances_self (sound : item.Sound) : item.Advances item := ⟨fun _ => rfl, Nat.le_refl _, sound⟩

theorem Advances.trans (first : item.Advances later) (second : later.Advances last) : item.Advances last where
  settled final := by
    obtain rfl := first.settled final
    exact second.settled final
  stages := Nat.le_trans first.stages second.stages
  sound := second.sound

theorem Sound.stagesDone_le (sound : item.Sound) : item.stagesDone ≤ Stage.compile.length := by
  unfold stagesDone
  split
  · exact Nat.le_refl _
  next going => exact Nat.le_of_lt (sound (Bool.eq_false_iff.mpr going))

theorem Sound.stagesDone_eq_iff (sound : item.Sound) :
    item.stagesDone = Stage.compile.length ↔ item.isFinal = true := by
  refine ⟨fun all => ?_, fun final => if_pos final⟩
  by_contra going
  rw [stagesDone, if_neg going] at all
  exact Nat.ne_of_lt (sound (Bool.eq_false_iff.mpr going)) all

theorem hear_of_isFinal (final : item.isFinal = true) (event : ProgressEvent) : item.hear event = item := by
  unfold hear beginStage finishStage fail
  split <;> exact if_pos final

section
variable (going : item.isFinal = false)
include going

theorem Sound.advances_of_isFinal (sound : item.Sound) (final : later.isFinal = true) : item.Advances later where
  settled is_final := absurd is_final (Bool.eq_false_iff.mp going)
  stages := by
    rw [stagesDone.eq_def later, if_pos final]
    exact sound.stagesDone_le
  sound still := absurd final (Bool.eq_false_iff.mp still)

theorem advances_of_open (still : later.isFinal = false) (more : item.completed ≤ later.completed)
    (room : later.completed < Stage.compile.length) : item.Advances later where
  settled is_final := absurd is_final (Bool.eq_false_iff.mp going)
  stages := by
    rw [stagesDone, stagesDone, if_neg (Bool.eq_false_iff.mp going), if_neg (Bool.eq_false_iff.mp still)]
    exact more
  sound _ := room

theorem completed_finishStage (stage : Stage) :
    item.completed ≤ (item.finishStage stage).completed ∧
      (stage ≠ .diagnose → item.completed < Stage.compile.length →
        (item.finishStage stage).completed < Stage.compile.length) := by
  rw [finishStage, if_neg (Bool.eq_false_iff.mp going)]
  refine ⟨Nat.le_max_left _ _, fun not_last room => max_lt room ?_⟩
  cases stage with
  | diagnose => exact absurd rfl not_last
  | _ => decide

end

/-- Every event moves an item on or leaves it as it is: the end of a stage before the last leaves the last one
to do, and what ends the last stage or fails makes the item final. -/
theorem Sound.advances_hear (sound : item.Sound) (event : ProgressEvent) : item.Advances (item.hear event) := by
  cases going : item.isFinal with
  | true =>
    rw [hear_of_isFinal going]
    exact sound.advances_self
  | false =>
    obtain ⟨file, stage, status, failure⟩ := event
    cases status with
    | working =>
      rw [hear_working going]
      exact advances_of_open going (not_isFinal_label stage) (Nat.le_refl _) (sound going)
    | error => exact sound.advances_of_isFinal going (isFinal_iff.mpr (.inr (hear_error going)))
    | done =>
      have status : (item.hear ⟨file, stage, .done, failure⟩).status =
          if stage = .diagnose then .done else item.status :=
        hear_done going
      by_cases ended : stage = .diagnose
      · rw [if_pos ended] at status
        exact sound.advances_of_isFinal going (isFinal_iff.mpr (.inl status))
      · rw [if_neg ended] at status
        obtain ⟨more, room⟩ := completed_finishStage going stage
        have still : (item.hear ⟨file, stage, .done, failure⟩).isFinal = false := by
          rw [isFinal, status]
          exact going
        exact advances_of_open going still more (room ended (sound going))

end Item

/-! ## The items of a board -/

namespace Board
variable {items later last : List Item}

theorem advances_trans (first : List.Forall₂ Item.Advances items later)
    (second : List.Forall₂ Item.Advances later last) :
    List.Forall₂ Item.Advances items last := by
  induction first generalizing last with
  | nil => exact second
  | cons here _ ih =>
    cases second with
    | cons next rest => exact .cons (here.trans next) (ih rest)

theorem sound_of_advances (moved : List.Forall₂ Item.Advances items later) : ∀ item ∈ later, item.Sound := by
  induction moved with
  | nil => simp
  | cons here _ ih => exact List.forall_mem_cons.mpr ⟨here.sound, ih⟩

theorem getElem?_of_advances (moved : List.Forall₂ Item.Advances items later) {i : Nat} {item : Item}
    (here : items[i]? = some item) (final : item.isFinal = true) : later[i]? = some item := by
  induction moved generalizing i with
  | nil => cases here
  | cons step _ ih =>
    cases i with
    | zero =>
      obtain rfl := Option.some.inj here
      exact congrArg some (step.settled final)
    | succ i => exact ih here

theorem advances_changeLast (sound : ∀ item ∈ items, item.Sound) (file : String) (event : ProgressEvent) :
    List.Forall₂ Item.Advances items (changeLast file (·.hear event) items) := by
  induction items with
  | nil => exact .nil
  | cons item rest ih =>
    obtain ⟨first, others⟩ := List.forall_mem_cons.mp sound
    rw [changeLast]
    -- The item that hears is followed by none of its file, so that the rest stays.
    split
    · exact .cons (first.advances_hear event) (List.forall₂_same.mpr fun other mem => (others other mem).advances_self)
    · exact .cons first.advances_self (ih others)

/-- Whatever is told, every item moves on or stays as it is. -/
theorem advances_foldl_apply (events : List ProgressEvent) {board : Board} (sound : ∀ item ∈ board.items, item.Sound) :
    List.Forall₂ Item.Advances board.items (events.foldl apply board).items := by
  induction events generalizing board with
  | nil => exact List.forall₂_same.mpr fun item mem => (sound item mem).advances_self
  | cons event rest ih =>
    have step : List.Forall₂ Item.Advances board.items (board.apply event).items := by
      rw [apply_eq]
      exact advances_changeLast sound event.file event
    exact advances_trans step (ih (sound_of_advances step))

theorem sound_labelled (files labels : List String) : ∀ item ∈ labelled files labels, item.Sound := by
  induction files generalizing labels with
  | nil => simp [labelled]
  | cons file rest ih =>
    have fresh (label : String) : Item.Sound ⟨file, label, .queued, 0⟩ := fun _ => Nat.succ_pos 4
    cases labels <;> exact List.forall_mem_cons.mpr ⟨fresh _, ih _⟩

/-! ## The share of the work -/

theorem sum_stagesDone_le_of_advances (moved : List.Forall₂ Item.Advances items later) :
    (items.map Item.stagesDone).sum ≤ (later.map Item.stagesDone).sum := by
  apply List.Forall₂.sum_le_sum
  rw [List.forall₂_map_left_iff, List.forall₂_map_right_iff]
  exact moved.imp fun _ _ step => step.stages

/-- All stages of the final items, and those that the others have completed. -/
theorem sum_stagesDone (items : List Item) :
    (items.map Item.stagesDone).sum =
      Stage.compile.length * items.countP Item.isFinal + ((items.filter (!·.isFinal)).map Item.completed).sum := by
  induction items with
  | nil => rfl
  | cons item rest ih =>
    rw [List.map_cons, List.sum_cons, ih, List.countP_cons]
    cases final : item.isFinal with
    | true =>
      rw [Item.stagesDone, if_pos final, List.filter_cons_of_neg (by simp [final]), if_pos rfl, Nat.mul_add]
      omega
    | false =>
      rw [Item.stagesDone, if_neg (Bool.eq_false_iff.mp final), List.filter_cons_of_pos (by simp [final]),
        List.map_cons, List.sum_cons, if_neg Bool.false_ne_true, Nat.add_zero]
      omega

section
variable (sound : ∀ item ∈ items, item.Sound)
include sound

theorem sum_stagesDone_le : (items.map Item.stagesDone).sum ≤ Stage.compile.length * items.length := by
  induction items with
  | nil => exact Nat.le_refl _
  | cons item rest ih =>
    obtain ⟨first, others⟩ := List.forall_mem_cons.mp sound
    have here := first.stagesDone_le
    have there := ih others
    rw [List.map_cons, List.sum_cons, List.length_cons, Nat.mul_succ]
    omega

theorem sum_stagesDone_eq_iff :
    (items.map Item.stagesDone).sum = Stage.compile.length * items.length ↔ ∀ item ∈ items, item.isFinal = true := by
  induction items with
  | nil => simp
  | cons item rest ih =>
    obtain ⟨first, others⟩ := List.forall_mem_cons.mp sound
    have here := first.stagesDone_le
    have there := sum_stagesDone_le others
    -- Neither part of the sum exceeds its bound, so that the bounds are reached together or not at all.
    rw [List.map_cons, List.sum_cons, List.length_cons, Nat.mul_succ, List.forall_mem_cons, ← first.stagesDone_eq_iff,
      ← ih others]
    omega

end

/-- The share of the work as `fraction` would tell it without rounding. -/
def exactFraction (board : Board) : ℚ :=
  (board.items.map fun item => (item.stagesDone : ℚ) / Stage.compile.length).sum / board.items.length

theorem exactFraction_eq (board : Board) :
    board.exactFraction =
      ((board.items.map Item.stagesDone).sum : ℕ) / (Stage.compile.length * board.items.length : ℕ) := by
  have parts (items : List Item) : (items.map fun item => (item.stagesDone : ℚ) / Stage.compile.length).sum =
      ((items.map Item.stagesDone).sum : ℕ) / Stage.compile.length := by
    induction items with
    | nil => simp
    | cons item rest ih => rw [List.map_cons, List.sum_cons, ih, List.map_cons, List.sum_cons, Nat.cast_add, add_div]
  rw [exactFraction, parts, div_div, Nat.cast_mul]

def after (title : String) (files labels : List String) (events : List ProgressEvent) : Board :=
  events.foldl apply (.new title files labels)

section
variable (title : String) (files labels : List String)

theorem after_append (events more : List ProgressEvent) :
    after title files labels (events ++ more) = more.foldl apply (after title files labels events) := List.foldl_append

theorem advances_new (events : List ProgressEvent) :
    List.Forall₂ Item.Advances (new title files labels).items (after title files labels events).items :=
  advances_foldl_apply events (sound_labelled files labels)

theorem length_after (events : List ProgressEvent) : (after title files labels events).items.length = files.length := by
  rw [← (advances_new title files labels events).length_eq, new, length_labelled]

theorem advances_after (events more : List ProgressEvent) :
    List.Forall₂ Item.Advances (after title files labels events).items
      (after title files labels (events ++ more)).items := by
  rw [after_append]
  exact advances_foldl_apply more (sound_of_advances (advances_new title files labels events))

end

/-- Whatever is told about a board's files, in whatever order: its share of the work, all stages of the final
files and the completed ones of the others, never falls and stays between nothing and the whole. It is the
whole exactly when every file is done or failed, and a file that is done or failed stays as it is. -/
theorem exactFraction_advances (title : String) (labels : List String) {files : List String} (some_file : files ≠ []) :
    let board := after title files labels
    (∀ events, (board events).items.length = files.length ∧
      (board events).exactFraction =
        (5 * (board events).items.countP Item.isFinal +
          (((board events).items.filter (!·.isFinal)).map Item.completed).sum : ℕ) / (5 * files.length : ℕ)) ∧
    (∀ events event, (board events).exactFraction ≤ (board (events ++ [event])).exactFraction) ∧
    (∀ events, 0 ≤ (board events).exactFraction ∧ (board events).exactFraction ≤ 1) ∧
    (∀ events, (board events).exactFraction = 1 ↔
      ∀ item ∈ (board events).items, item.status = .done ∨ item.status = .error) ∧
    (∀ (events more : List ProgressEvent) (i : Nat) (item : Item), (board events).items[i]? = some item →
      item.status = .done ∨ item.status = .error → (board (events ++ more)).items[i]? = some item) := by
  intro board
  have length (events : List ProgressEvent) : (board events).items.length = files.length :=
    length_after title files labels events
  have value (events : List ProgressEvent) : (board events).exactFraction =
      (((board events).items.map Item.stagesDone).sum : ℕ) / (5 * files.length : ℕ) := by
    rw [exactFraction_eq, length]
    rfl
  have sound (events : List ProgressEvent) : ∀ item ∈ (board events).items, item.Sound :=
    sound_of_advances (advances_new title files labels events)
  have positive : (0 : ℚ) < (5 * files.length : ℕ) :=
    Nat.cast_pos.mpr (Nat.mul_pos (Nat.succ_pos 4) (List.length_pos_iff.mpr some_file))
  refine ⟨fun events => ⟨length events, ?_⟩, fun events event => ?_, fun events => ⟨?_, ?_⟩, fun events => ?_, ?_⟩
  · rw [value, sum_stagesDone]
    rfl
  · rw [value, value, div_le_div_iff_of_pos_right positive, Nat.cast_le]
    exact sum_stagesDone_le_of_advances (advances_after title files labels events [event])
  · rw [value]
    exact div_nonneg (Nat.cast_nonneg _) (Nat.cast_nonneg _)
  · rw [value, div_le_one positive, Nat.cast_le, ← length events]
    exact sum_stagesDone_le (sound events)
  · rw [value, div_eq_one_iff_eq positive.ne', Nat.cast_inj, ← length events]
    simp only [← Item.isFinal_iff]
    exact sum_stagesDone_eq_iff (sound events)
  · intro events more i item here final
    exact getElem?_of_advances (advances_after title files labels events more) here (Item.isFinal_iff.mpr final)

/-- The fourth stage of one file ends before any other has begun, something is told of a file that is not
there, and the other file fails. Nine of ten stages count, and whatever comes next, not fewer; the file that
failed stays so. -/
theorem exactFraction_twoFiles :
    let board := after "checking" ["/a.ts", "/b.ts"] []
    let told : List ProgressEvent :=
      [⟨"/b.ts", .emit, .done, none⟩, ⟨"/c.ts", .program, .working, none⟩, ⟨"/a.ts", .config, .error, none⟩]
    (board told).exactFraction = 9 / 10 ∧ (∀ event, 9 / 10 ≤ (board (told ++ [event])).exactFraction) ∧
      ∀ more, ((board (told ++ more)).items[0]?).map Item.status = some .error := by
  intro board told
  have some_file : ["/a.ts", "/b.ts"] ≠ [] := List.cons_ne_nil _ _
  obtain ⟨value, rising, -, -, settled⟩ := exactFraction_advances "checking" [] some_file
  have stages : (board told).exactFraction = 9 / 10 := by
    rw [(value told).2]
    rfl
  refine ⟨stages, fun event => stages ▸ rising told event, fun more => ?_⟩
  rw [settled told more 0 ⟨"/a.ts", "/a.ts", .error, 0⟩ (by decide) (.inr rfl)]
  rfl

end Board
end ScriptLoader.Progress
