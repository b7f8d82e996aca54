import ScriptLoader.Progress.Board
import ScriptLoader.Proofs.Decimal.Counting
import ScriptLoader.Proofs.Pipeline.ProgressTold

/-!
What a board shows in the end. Files are compiled side by side, and the events about them arrive in any order
that keeps the order of each file's own events. A file's item hears of this file alone, so that it ends as the
compilation of the file did.
-/

set_option autoImplicit false
namespace ScriptLoader

/-- Orders in which the items of several sequences can arrive: the next item is the next of any sequence that
has one left. -/
inductive Interleaving {α : Type} : List (List α) → List α → Prop where
  | done {sources : List (List α)} (all_empty : ∀ source ∈ sources, source = []) : Interleaving sources []
  | next {sources : List (List α)} {item : α} {rest merged : List α} (i : Nat)
      (here : sources[i]? = some (item :: rest))
      (later : Interleaving (sources.set i rest) merged) : Interleaving sources (item :: merged)

/-- Several items of one sequence may arrive in a row. -/
theorem Interleaving.nexts {α : Type} {sources : List (List α)} {items merged : List α} (i : Nat) (rest : List α)
    (here : sources[i]? = some (items ++ rest)) (later : Interleaving (sources.set i rest) merged) :
    Interleaving sources (items ++ merged) := by
  induction items generalizing sources with
  | nil =>
    obtain ⟨inside, same⟩ := List.getElem?_eq_some_iff.mp here
    have unchanged : sources.set i rest = sources := by rw [← List.nil_append rest, ← same, List.set_getElem_self]
    rwa [unchanged] at later
  | cons item items ih =>
    refine .next i here (ih ?_ ?_)
    · exact List.getElem?_set_self (List.getElem?_eq_some_iff.mp here).1
    · rwa [List.set_set]

/-- What is kept of an arrival is the one sequence all of whose items are kept, if none of the others is. -/
theorem Interleaving.filter_eq {α : Type} {sources : List (List α)} {merged : List α}
    (arrived : Interleaving sources merged)
    {keep : α → Bool} {i : Nat}
    (own : ∀ j source, sources[j]? = some source → ∀ item ∈ source, keep item = decide (j = i))
    {source : List α} (here : sources[i]? = some source) : merged.filter keep = source := by
  induction arrived generalizing source with
  | done all_empty => rw [all_empty source (List.mem_of_getElem? here), List.filter_nil]
  | @next sources item rest merged j next later ih =>
    have inside : j < sources.length := (List.getElem?_eq_some_iff.mp next).1
    have own_later : ∀ k source, (sources.set j rest)[k]? = some source → ∀ item ∈ source,
        keep item = decide (k = i) := by
      intro k source found item mem
      by_cases same : j = k
      · subst same
        rw [List.getElem?_set_self inside, Option.some.injEq] at found
        subst found
        exact own j _ next item (List.mem_cons_of_mem _ mem)
      · rw [List.getElem?_set_ne same] at found
        exact own k source found item mem
    have kept := own j _ next item List.mem_cons_self
    by_cases same : j = i
    · subst same
      obtain rfl := Option.some.inj (next.symm.trans here)
      rw [List.filter_cons_of_pos (by rw [kept]; simp), ih own_later (List.getElem?_set_self inside)]
    · rw [List.filter_cons_of_neg (by rw [kept]; simp [same])]
      exact ih own_later (by rw [List.getElem?_set_ne same, here])

namespace Progress

/-! ## What an item hears -/

namespace Item

def hear (item : Item) (event : ProgressEvent) : Item :=
  match event.status with
  | .working => item.beginStage event.stage.label
  | .done => item.finishStage event.stage
  | .error => item.fail

@[simp] theorem file_hear (item : Item) (event : ProgressEvent) : (item.hear event).file = item.file := by
  unfold hear
  split
  · unfold beginStage
    split <;> rfl
  · unfold finishStage
    split <;> rfl
  · unfold fail
    split <;> rfl

variable {item : Item} {file : String} {stage : Stage} {failure : Option Failure}

theorem not_isFinal_label (stage : Stage) : (ItemStatus.ofLabel stage.label).isFinal = false := by
  cases stage <;> decide

theorem hear_working (going : item.isFinal = false) :
    item.hear ⟨file, stage, .working, failure⟩ = { item with status := .ofLabel stage.label } := by
  simp [hear, beginStage, going]

theorem hear_error (going : item.isFinal = false) :
    (item.hear ⟨file, stage, .error, failure⟩).status = .error := by
  simp [hear, fail, going]

theorem hear_done (going : item.isFinal = false) :
    (item.hear ⟨file, stage, .done, failure⟩).status = if stage = .diagnose then .done else item.status := by
  simp [hear, finishStage, going]

/-- Stages before the last one leave the item open. -/
theorem not_isFinal_hear_doneBlocks (file : String) {stages : List Stage} (open_end : .diagnose ∉ stages)
    (going : item.isFinal = false) :
    ((Pipeline.doneBlocks file stages).foldl hear item).isFinal = false := by
  induction stages generalizing item with
  | nil => exact going
  | cons stage rest ih =>
    rw [List.mem_cons, not_or] at open_end
    obtain ⟨not_last, open_rest⟩ := open_end
    have working : (item.hear ⟨file, stage, .working, none⟩).isFinal = false := by
      rw [hear_working going]
      exact not_isFinal_label stage
    rw [Pipeline.doneBlocks, List.flatMap_cons, List.foldl_append]
    apply ih open_rest
    simp only [Pipeline.block, Pipeline.endStatus, List.foldl_cons, List.foldl_nil]
    rw [isFinal, hear_done working, if_neg (Ne.symm not_last)]
    exact working

/-- The block of the stage that failed, or of the last one, closes the item. -/
theorem status_hear_block (going : item.isFinal = false) (ended : failure = none → stage = .diagnose) :
    ((Pipeline.block file stage failure).foldl hear item).status = if failure = none then .done else .error := by
  have working : (item.hear ⟨file, stage, .working, none⟩).isFinal = false := by
    rw [hear_working going]
    exact not_isFinal_label stage
  simp only [Pipeline.block, List.foldl_cons, List.foldl_nil]
  cases failure with
  | none => rw [Pipeline.endStatus, hear_done working, if_pos (ended rfl), if_pos rfl]
  | some cause => rw [Pipeline.endStatus, hear_error working, if_neg (by simp)]

end Item

/-! ## What a board hears -/

namespace Board

theorem apply_eq (board : Board) (event : ProgressEvent) :
    board.apply event = board.change event.file (·.hear event) := by
  unfold apply Item.hear
  cases event.status <;> rfl

theorem changeLast_of_nodup (file : String) (f : Item → Item) {items : List Item}
    (distinct : (items.map Item.file).Nodup) :
    changeLast file f items = items.map fun item => if item.file = file then f item else item := by
  induction items with
  | nil => rfl
  | cons item rest ih =>
    rw [List.map_cons, List.nodup_cons] at distinct
    obtain ⟨absent, distinct_rest⟩ := distinct
    rw [changeLast, List.map_cons]
    by_cases here : item.file = file
    · have none_later : ∀ other ∈ rest, other.file ≠ file := fun other mem same =>
        absent (List.mem_map.mpr ⟨other, mem, same.trans here.symm⟩)
      have kept : (rest.map fun item => if item.file = file then f item else item) = rest := by
        refine (List.map_congr_left ?_).trans (List.map_id rest)
        intro other mem
        exact if_neg (none_later other mem)
      rw [if_pos ⟨here, by simpa using none_later⟩, if_pos here, kept]
    · rw [if_neg fun both => here both.1, if_neg here, ih distinct_rest]

/-- Every item hears of its own file and of nothing else. -/
theorem items_foldl_apply (events : List ProgressEvent) {board : Board} (distinct : (board.items.map Item.file).Nodup) :
    (events.foldl apply board).items =
      board.items.map fun item => (events.filter (·.file = item.file)).foldl Item.hear item := by
  induction events generalizing board with
  | nil => simp
  | cons event rest ih =>
    have heard : (board.apply event).items =
        board.items.map fun item => if item.file = event.file then item.hear event else item := by
      rw [apply_eq]
      exact changeLast_of_nodup _ _ distinct
    have same_files : (board.apply event).items.map Item.file = board.items.map Item.file := by
      rw [heard, List.map_map]
      apply List.map_congr_left
      intro item _
      simp only [Function.comp_apply]
      split <;> simp
    rw [List.foldl_cons, ih (by rw [same_files]; exact distinct), heard, List.map_map]
    apply List.map_congr_left
    intro item _
    simp only [Function.comp_apply]
    by_cases here : item.file = event.file
    · rw [if_pos here, Item.file_hear, List.filter_cons_of_pos (by simp [here]), List.foldl_cons]
    · rw [if_neg here, List.filter_cons_of_neg (by simp [Ne.symm here])]

theorem length_labelled (files labels : List String) : (labelled files labels).length = files.length := by
  induction files generalizing labels with
  | nil => rfl
  | cons file rest ih => cases labels <;> simp [labelled, ih]

theorem getElem?_labelled {files labels : List String} {i : Nat} {item : Item}
    (found : (labelled files labels)[i]? = some item) :
    files[i]? = some item.file ∧ item.isFinal = false := by
  induction files generalizing labels i with
  | nil => cases found
  | cons file rest ih =>
    cases i with
    | zero =>
      cases labels <;>
      · simp only [labelled, List.getElem?_cons_zero, Option.some.injEq] at found
        subst found
        exact ⟨rfl, rfl⟩
    | succ i => cases labels <;> exact ih found

theorem files_labelled (files labels : List String) : (labelled files labels).map Item.file = files := by
  apply List.ext_getElem?
  intro i
  rw [List.getElem?_map]
  cases found : (labelled files labels)[i]? with
  | none => rw [Option.map_none, eq_comm, List.getElem?_eq_none_iff, ← length_labelled files labels,
      ← List.getElem?_eq_none_iff, found]
  | some item => rw [(getElem?_labelled found).1, Option.map_some]

/-! ## The work that is done -/

section
variable {board : Board} (all_final : ∀ item ∈ board.items, item.isFinal = true)
include all_final

theorem share_of_final : 0 < board.share.2 ∧ board.share.1 = board.share.2 := by
  rw [share]
  split
  · exact ⟨Nat.one_pos, rfl⟩
  · rename_i some_item
    refine ⟨Nat.mul_pos (by decide) (List.length_pos_iff.mpr (by simpa using some_item)), ?_⟩
    clear some_item
    generalize board.items = items at all_final
    induction items with
    | nil => rfl
    | cons item rest ih =>
      obtain ⟨final, others⟩ := List.forall_mem_cons.mp all_final
      have done : item.stagesDone = Stage.compile.length := if_pos final
      simp only [List.map_cons, List.foldr_cons, List.length_cons, Nat.mul_succ] at ih ⊢
      rw [ih others, done, Nat.add_comm]

theorem fraction_of_final (countable : board.items.length ≤ 2 ^ 53) : board.fraction = .one := by
  rw [fraction]
  split
  · rfl
  · rename_i some_item
    have parts : ∀ part ∈ board.items.map Item.part, part = Binary64.one := by
      intro part mem
      obtain ⟨item, held, rfl⟩ := List.mem_map.mp mem
      have done : item.stagesDone = Stage.compile.length := if_pos (all_final item held)
      rw [Item.part, done]
      exact Binary64.ofQuotient_self (by decide)
    have counted := Binary64.foldl_add_ones parts Binary64.zero_is (by simpa using countable)
    rw [Nat.zero_add, List.length_map] at counted
    exact counted.divNat_self (List.length_pos_iff.mpr (by simpa using some_item))

end
end Board
end Progress

/-! ## Compilations side by side -/

namespace Pipeline

/-- The last stage stands at the end alone, and what was passed ends before the end. -/
theorem diagnose_not_mem_passed {governing : Governing} {passed : List Stage} {last : Stage}
    (begins : passed ++ [last] <+: laterStages governing) : .diagnose ∉ passed := by
  obtain ⟨left, whole⟩ := begins
  obtain ⟨front, final, split⟩ := (List.eq_nil_or_concat (last :: left)).resolve_left (by simp)
  have stages : passed ++ front ++ [final] =
      (if governing.refers then [.references] else []) ++ [.program, .emit] ++ [.diagnose] := by
    rw [List.append_assoc, ← List.concat_eq_append, ← split, List.append_cons, whole, laterStages]
    simp
  intro mem
  have listed := List.mem_append_left front mem
  rw [(List.append_inj' stages rfl).1] at listed
  revert listed
  cases governing.refers <;> decide

section
variable {path : String} {last : Stage} {failure : Option Failure} {result : Except CompileError CompileOutput}

theorem EndsWith.eq_diagnose (ended : EndsWith path last failure result) (well : failure = none) :
    last = .diagnose := by
  cases ended with
  | failed => cases well
  | done => rfl

theorem EndsWith.eq_none_iff (ended : EndsWith path last failure result) : failure = none ↔ result.isOk = true := by
  cases ended <;> simp [Except.isOk, Except.toBool]

end
end Pipeline

structure CompileCall where
  pipeline : Pipeline
  setting : Setting
  file : String
  hint : Option ModuleFormat := none

namespace CompileCall

def path (call : CompileCall) : String := call.setting.fs.abs call.file

def run (call : CompileCall) : Traced (Except CompileError CompileOutput) :=
  call.pipeline.compile call.setting call.file call.hint

def events (call : CompileCall) : List ProgressEvent := Pipeline.progressOf call.run.trace

section
variable {call : CompileCall} (quiet : call.pipeline.engine.Quiet) (steady : call.pipeline.engine.Steady)
include quiet steady

theorem file_of_mem_events {event : ProgressEvent} (mem : event ∈ call.events) : event.file = call.path := by
  obtain ⟨passed, last, failure, told, -, -⟩ := Pipeline.exists_blocks quiet steady call.setting call.file call.hint
  have of_block : ∀ {label failure}, event ∈ Pipeline.block call.path label failure → event.file = call.path := by
    intro label failure mem
    simp only [Pipeline.block, List.mem_cons, List.not_mem_nil, or_false] at mem
    rcases mem with rfl | rfl <;> rfl
  rw [events, run, told, List.mem_append] at mem
  rcases mem with done | ended
  · obtain ⟨label, -, mem⟩ := List.mem_flatMap.mp done
    exact of_block mem
  · exact of_block ended

/-- The events of a call close an item as the call ended. -/
theorem status_hear_events {item : Progress.Item} (going : item.isFinal = false) :
    (call.events.foldl Progress.Item.hear item).status = if call.run.value.isOk then .done else .error := by
  obtain ⟨passed, last, failure, told, begins, ended⟩ :=
    Pipeline.exists_blocks quiet steady call.setting call.file call.hint
  have open_end : .diagnose ∉ .config :: passed := by
    rw [List.mem_cons, not_or]
    exact ⟨nofun, Pipeline.diagnose_not_mem_passed begins⟩
  have opened := Progress.Item.not_isFinal_hear_doneBlocks call.path open_end going
  rw [events, run, told, List.foldl_append]
  refine (Progress.Item.status_hear_block opened ended.eq_diagnose).trans ?_
  simp only [ended.eq_none_iff]

end

/-- The item of a call's file closes as the call ended, in whichever order the events of all calls arrive. -/
theorem getElem?_items_of_arrived {calls : List CompileCall} (distinct : (calls.map path).Nodup)
    (quiet : ∀ call ∈ calls, call.pipeline.engine.Quiet) (steady : ∀ call ∈ calls, call.pipeline.engine.Steady)
    {arrived : List ProgressEvent} (order : Interleaving (calls.map events) arrived)
    (title : String) (labels : List String) {i : Nat} {call : CompileCall} (here : calls[i]? = some call) :
    ∃ item, (arrived.foldl Progress.Board.apply (.new title (calls.map path) labels)).items[i]? = some item ∧
      item.file = call.path ∧ item.status = if call.run.value.isOk then .done else .error := by
  have mem := List.mem_of_getElem? here
  have inside : i < (Progress.Board.labelled (calls.map path) labels).length := by
    rw [Progress.Board.length_labelled, List.length_map]
    exact (List.getElem?_eq_some_iff.mp here).1
  obtain ⟨item, found⟩ : ∃ item, (Progress.Board.labelled (calls.map path) labels)[i]? = some item :=
    ⟨_, List.getElem?_eq_getElem inside⟩
  obtain ⟨file, going⟩ := Progress.Board.getElem?_labelled found
  rw [List.getElem?_map, here, Option.map_some, Option.some.injEq] at file
  have heard : arrived.filter (·.file = item.file) = call.events := by
    refine order.filter_eq (i := i) ?_ (by rw [List.getElem?_map, here, Option.map_some])
    intro j source at_j event told
    rw [List.getElem?_map, Option.map_eq_some_iff] at at_j
    obtain ⟨other, at_j, rfl⟩ := at_j
    have other_mem := List.mem_of_getElem? at_j
    rw [file_of_mem_events (quiet other other_mem) (steady other other_mem) told, ← file, decide_eq_decide]
    -- Distinct paths belong to distinct calls.
    have at_i' : (calls.map path)[i]? = some call.path := by rw [List.getElem?_map, here, Option.map_some]
    have at_j' : (calls.map path)[j]? = some other.path := by rw [List.getElem?_map, at_j, Option.map_some]
    rw [← Option.some.injEq, ← at_j', ← at_i', List.getElem?_inj (List.getElem?_eq_some_iff.mp at_j').1 distinct]
  have same_file : ∀ events : List ProgressEvent, (events.foldl Progress.Item.hear item).file = item.file := by
    intro events
    induction events using List.reverseRecOn with
    | nil => rfl
    | append_singleton before event ih => rw [List.foldl_concat, Progress.Item.file_hear, ih]
  refine ⟨_, ?_, (same_file call.events).trans file.symm, status_hear_events (quiet call mem) (steady call mem) going⟩
  rw [Progress.Board.items_foldl_apply, List.getElem?_map, Progress.Board.new, found, Option.map_some, heard]
  rw [Progress.Board.new, Progress.Board.files_labelled]
  exact distinct

/-- Files are compiled side by side, each by one call and with a path of its own, and a board takes in the
events of all calls in whichever order they arrive. In the end the item of each file is done or failed as its
compilation was, no item is left open, and all of the work counts as done: the whole of the stages, and the
fraction that is told, as far as binary64 numbers can count the files. -/
theorem board_shows_outcomes (title : String) (labels : List String) {calls : List CompileCall}
    (distinct : (calls.map path).Nodup) (quiet : ∀ call ∈ calls, call.pipeline.engine.Quiet)
    (steady : ∀ call ∈ calls, call.pipeline.engine.Steady) {arrived : List ProgressEvent}
    (order : Interleaving (calls.map events) arrived) :
    let board := arrived.foldl Progress.Board.apply (.new title (calls.map path) labels)
    board.items.length = calls.length ∧
    (∀ (i : Nat) call, calls[i]? = some call → ∃ item, board.items[i]? = some item ∧ item.file = call.path ∧
      (item.status = .done ↔ ∃ output, call.run.value = .ok output) ∧
      (item.status = .error ↔ ∃ e, call.run.value = .error e)) ∧
    (∀ item ∈ board.items, item.status = .done ∨ item.status = .error) ∧
    (0 < board.share.2 ∧ board.share.1 = board.share.2) ∧
    (calls.length ≤ 2 ^ 53 → board.fraction = .one) := by
  intro board
  have length : board.items.length = calls.length := by
    have files : ((Progress.Board.new title (calls.map path) labels).items.map Progress.Item.file).Nodup := by
      rw [Progress.Board.new, Progress.Board.files_labelled]
      exact distinct
    rw [Progress.Board.items_foldl_apply arrived files, List.length_map, Progress.Board.new,
      Progress.Board.length_labelled, List.length_map]
  have shown := fun {i : Nat} {call : CompileCall} (here : calls[i]? = some call) =>
    getElem?_items_of_arrived distinct quiet steady order title labels here
  have closed : ∀ item ∈ board.items, item.status = .done ∨ item.status = .error := by
    intro item mem
    obtain ⟨i, inside, rfl⟩ := List.mem_iff_getElem.mp mem
    obtain ⟨item', found, -, status⟩ := shown (List.getElem?_eq_getElem (length ▸ inside))
    obtain rfl := Option.some.inj ((List.getElem?_eq_getElem inside).symm.trans found)
    rw [status]
    split
    · exact .inl rfl
    · exact .inr rfl
  have all_final : ∀ item ∈ board.items, item.isFinal = true := by
    intro item mem
    rcases closed item mem with status | status <;> simp [Progress.Item.isFinal, Progress.ItemStatus.isFinal, status]
  refine ⟨length, ?_, closed, Progress.Board.share_of_final all_final, fun countable => ?_⟩
  · intro i call here
    obtain ⟨item, found, file, status⟩ := shown here
    refine ⟨item, found, file, ?_⟩
    rw [status]
    cases call.run.value <;> simp [Except.isOk, Except.toBool]
  · exact Progress.Board.fraction_of_final all_final (length ▸ countable)

/-- One file is compiled and one is missing. The first is under way when all is told of the second. -/
theorem board_chainOfProjects :
    let setting : Setting := ⟨Pipeline.chainOfProjects, false⟩
    let found : CompileCall := ⟨⟨Bundler.echo.engine, {}⟩, setting, "/p/a.ts", none⟩
    let missing : CompileCall := ⟨⟨Bundler.echo.engine, {}⟩, setting, "/p/b.ts", none⟩
    let arrived := found.events.take 3 ++ (missing.events ++ found.events.drop 3)
    let board := arrived.foldl Progress.Board.apply (.new "checking" ([found, missing].map path) [])
    board.items.length = 2 ∧ board.items[0]?.map (·.status) = some .done ∧
      board.items[1]?.map (·.status) = some .error ∧ board.fraction = .one := by
  intro setting found missing arrived
  have order : Interleaving ([found, missing].map events) arrived := by
    refine .nexts 0 (found.events.drop 3) ?_ (.nexts 1 [] ?_ ?_)
    · rw [List.take_append_drop]
      rfl
    · rw [List.append_nil]
      rfl
    · rw [← List.append_nil (found.events.drop 3)]
      refine .nexts 0 [] rfl (.done ?_)
      simp
  have all_quiet : ∀ call ∈ [found, missing], call.pipeline.engine.Quiet := by
    simp [found, missing, Bundler.quiet]
  have all_steady : ∀ call ∈ [found, missing], call.pipeline.engine.Steady := by
    simp [found, missing, Bundler.steady]
  have compiled : found.run.value = .ok ⟨"", .commonJS⟩ := Pipeline.compile_echo.1
  have failed : missing.run.value.isOk = false := by decide +kernel
  have failure : ∃ e, missing.run.value = .error e := by
    generalize missing.run.value = result at failed
    cases result with
    | error e => exact ⟨e, rfl⟩
    | ok output => cases failed
  have outcomes := board_shows_outcomes "checking" [] (by decide) all_quiet all_steady order
  dsimp only at outcomes ⊢
  generalize arrived.foldl Progress.Board.apply (.new "checking" ([found, missing].map path) []) = board at outcomes ⊢
  obtain ⟨length, shown, -, -, whole⟩ := outcomes
  obtain ⟨first, at_first, -, first_done, -⟩ := shown 0 found rfl
  obtain ⟨second, at_second, -, -, second_failed⟩ := shown 1 missing rfl
  refine ⟨length, ?_, ?_, whole (by decide)⟩
  · rw [at_first, Option.map_some, first_done.mpr ⟨_, compiled⟩]
  · rw [at_second, Option.map_some, second_failed.mpr failure]

end CompileCall
end ScriptLoader
