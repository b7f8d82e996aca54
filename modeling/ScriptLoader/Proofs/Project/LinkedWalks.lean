import ScriptLoader.Proofs.FollowedNames
import ScriptLoader.Proofs.Project.WalkedFiles
import Mathlib.Data.List.Perm.Subperm

/-!
Walks through trees with links. A walk is told by the directories that it enters and by what it comes across
in them, without a bound on its depth. It has an end however the links are laid, because every directory that
it reads is one it has not read before.
-/

set_option autoImplicit false
namespace ScriptLoader.Project
open FileTree (pathOf trail)

/-- What a walk has before it: a directory by its path, or entries of the directory that is read. -/
inductive WalkTask where
  | enter (path : String)
  | entries (directory : String) (items : List FileSystem.Listed)

inductive WalkEvent where
  | entered (path : String)
  | found (directory name : String)
  | missed (directory name : String)

namespace WalkEvent

def path? : WalkEvent → Option String
  | .entered path => some path
  | .found .. | .missed .. => none

def place? : WalkEvent → Option (String × String)
  | .entered _ => none
  | .found directory name | .missed directory name => some (directory, name)

def sighting? : WalkEvent → Option Sighting
  | .entered _ => none
  | .found directory name => some (.file (Path.join [directory, name]))
  | .missed directory name => some (.dangling (Path.join [directory, name]))

end WalkEvent

/-- What a walk does at an entry: it goes on into a directory, or comes across something, or neither. -/
inductive WalkMove where
  | enter (path : String)
  | note (seen : List WalkEvent)

def moveAt (fs : FileSystem) (pattern : String) (excludes : List String) (directory : String)
    (item : FileSystem.Listed) : WalkMove :=
  let child := Path.join [directory, item.name]
  match leadsToDirectory? fs child item.entry with
  | none => .note [.missed directory item.name]
  | some true => if Text.startsWith item.name "." || isExcluded child excludes then .note [] else .enter child
  | some false => if isSelected pattern excludes child then .note [.found directory item.name] else .note []

/-- A walk from the real directories visited before it to those visited after it, with all that happens on the way. -/
inductive Walks (fs : FileSystem) (pattern : String) (excludes : List String) :
    WalkTask → List String → List WalkEvent → List String → Prop where
  | stays {path visited} : (∀ real, fs.realPath? path = some real → real ∈ visited) →
      Walks fs pattern excludes (.enter path) visited [] visited
  | enters {path real visited events later} : fs.realPath? path = some real → real ∉ visited →
      Walks fs pattern excludes (.entries path ((fs.list? path).getD [])) (real :: visited) events later →
      Walks fs pattern excludes (.enter path) visited (.entered path :: events) later
  | done {directory visited} : Walks fs pattern excludes (.entries directory []) visited [] visited
  | notes {directory item items visited seen events later} : moveAt fs pattern excludes directory item = .note seen →
      Walks fs pattern excludes (.entries directory items) visited events later →
      Walks fs pattern excludes (.entries directory (item :: items)) visited (seen ++ events) later
  | descends {directory item items child visited inner between events later} :
      moveAt fs pattern excludes directory item = .enter child →
      Walks fs pattern excludes (.enter child) visited inner between →
      Walks fs pattern excludes (.entries directory items) between events later →
      Walks fs pattern excludes (.entries directory (item :: items)) visited (inner ++ events) later

section
variable {fs : FileSystem} {pattern : String} {excludes : List String}

theorem moveAt_cases (fs : FileSystem) (pattern : String) (excludes : List String) (directory : String)
    (item : FileSystem.Listed) :
    moveAt fs pattern excludes directory item = .enter (Path.join [directory, item.name]) ∨
      moveAt fs pattern excludes directory item = .note [] ∨
      moveAt fs pattern excludes directory item = .note [.found directory item.name] ∨
      moveAt fs pattern excludes directory item = .note [.missed directory item.name] := by
  unfold moveAt
  dsimp only
  split
  · exact .inr (.inr (.inr rfl))
  · split
    · exact .inr (.inl rfl)
    · exact .inl rfl
  · split
    · exact .inr (.inr (.inl rfl))
    · exact .inr (.inl rfl)

theorem note_cases {directory : String} {item : FileSystem.Listed} {seen : List WalkEvent}
    (move : moveAt fs pattern excludes directory item = .note seen) :
    seen = [] ∨ seen = [.found directory item.name] ∨ seen = [.missed directory item.name] := by
  rcases moveAt_cases fs pattern excludes directory item with other | same | same | same
  · cases move.symm.trans other
  · exact .inl (WalkMove.note.inj (move.symm.trans same))
  · exact .inr (.inl (WalkMove.note.inj (move.symm.trans same)))
  · exact .inr (.inr (WalkMove.note.inj (move.symm.trans same)))

theorem enter_eq {directory child : String} {item : FileSystem.Listed}
    (move : moveAt fs pattern excludes directory item = .enter child) : child = Path.join [directory, item.name] := by
  rcases moveAt_cases fs pattern excludes directory item with same | other | other | other
  · exact WalkMove.enter.inj (move.symm.trans same)
  all_goals cases move.symm.trans other

theorem path?_of_note {directory : String} {item : FileSystem.Listed} {seen : List WalkEvent}
    (move : moveAt fs pattern excludes directory item = .note seen) : seen.filterMap WalkEvent.path? = [] := by
  rcases note_cases move with rfl | rfl | rfl <;> rfl

theorem visit_eq (fs : FileSystem) (pattern : String) (excludes : List String) (fuel : Nat) (directory : String)
    (walk : Walk) (item : FileSystem.Listed) :
    visit fs pattern excludes fuel directory walk item =
      match moveAt fs pattern excludes directory item with
      | .enter child => walkDirectory fs pattern excludes fuel child walk
      | .note seen => ⟨walk.visited, walk.sightings ++ seen.filterMap WalkEvent.sighting?⟩ := by
  have nothing : walk = ⟨walk.visited, walk.sightings ++ ([] : List WalkEvent).filterMap WalkEvent.sighting?⟩ := by
    rw [List.filterMap_nil, List.append_nil]
  unfold visit moveAt
  dsimp only
  cases leadsToDirectory? fs (Path.join [directory, item.name]) item.entry with
  | none => rfl
  | some leads =>
    cases leads with
    | true =>
      dsimp only
      split
      · exact nothing
      · rfl
    | false =>
      dsimp only
      split
      · rfl
      · exact nothing

namespace Walks
variable {task : WalkTask} {visited later : List String} {events : List WalkEvent}

/-- There is only one way to walk. -/
theorem unique {events' : List WalkEvent} {later' : List String}
    (walks : Walks fs pattern excludes task visited events later)
    (walks' : Walks fs pattern excludes task visited events' later') : events' = events ∧ later' = later := by
  induction walks generalizing events' later' with
  | stays seen =>
    cases walks' with
    | stays => exact ⟨rfl, rfl⟩
    | enters real new => exact absurd (seen _ real) new
  | enters real new _ ih =>
    -- Whether a directory is entered depends on what was visited before, which is the same on both sides.
    cases walks' with
    | stays seen => exact absurd (seen _ real) new
    | enters real' _ inside' =>
      obtain rfl : _ = _ := Option.some.inj (real.symm.trans real')
      obtain ⟨rfl, rfl⟩ := ih inside'
      exact ⟨rfl, rfl⟩
  | done =>
    cases walks'
    exact ⟨rfl, rfl⟩
  | notes move _ ih =>
    cases walks' with
    | notes move' rest' =>
      cases move.symm.trans move'
      obtain ⟨rfl, rfl⟩ := ih rest'
      exact ⟨rfl, rfl⟩
    | descends move' => cases move.symm.trans move'
  | descends move _ _ ih_inner ih_rest =>
    cases walks' with
    | notes move' => cases move.symm.trans move'
    | descends move' inner' rest' =>
      cases move.symm.trans move'
      obtain ⟨rfl, rfl⟩ := ih_inner inner'
      obtain ⟨rfl, rfl⟩ := ih_rest rest'
      exact ⟨rfl, rfl⟩

/-- The directories that are entered are those that count as visited in the end, and were not before. -/
theorem visited_eq (walks : Walks fs pattern excludes task visited events later) :
    ∃ reals : List String, (events.filterMap WalkEvent.path?).map fs.realPath? = reals.map some ∧
      later = reals.reverse ++ visited ∧ (visited.Nodup → later.Nodup) := by
  induction walks with
  | stays => exact ⟨[], rfl, rfl, id⟩
  | @enters path real visited events later found new _ ih =>
    obtain ⟨reals, entered, rfl, distinct⟩ := ih
    refine ⟨real :: reals, ?_, by simp, fun nodup => distinct (List.nodup_cons.mpr ⟨new, nodup⟩)⟩
    rw [List.filterMap_cons_some (by rfl : WalkEvent.path? (.entered path) = some path), List.map_cons,
      found, entered, List.map_cons]
  | done => exact ⟨[], rfl, rfl, id⟩
  | notes move _ ih =>
    rw [List.filterMap_append, path?_of_note move, List.nil_append]
    exact ih
  | descends _ _ _ ih_inner ih_rest =>
    obtain ⟨reals, entered, rfl, distinct⟩ := ih_inner
    obtain ⟨reals', entered', rfl, distinct'⟩ := ih_rest
    refine ⟨reals ++ reals', ?_, by simp, distinct' ∘ distinct⟩
    rw [List.filterMap_append, List.map_append, entered, entered', List.map_append]

theorem visited_subset (walks : Walks fs pattern excludes task visited events later) : visited ⊆ later := by
  obtain ⟨reals, -, rfl, -⟩ := walks.visited_eq
  exact List.subset_append_right _ _

/-- What a walk has entered by some path it has visited. -/
theorem mem_visited {path : String} (walks : Walks fs pattern excludes task visited events later)
    (entered : path ∈ events.filterMap WalkEvent.path?) : ∃ real ∈ later, fs.realPath? path = some real := by
  obtain ⟨reals, same, rfl, -⟩ := walks.visited_eq
  have mem := List.mem_map_of_mem (f := fs.realPath?) entered
  rw [same] at mem
  obtain ⟨real, listed, found⟩ := List.mem_map.mp mem
  exact ⟨real, List.mem_append_left _ (List.mem_reverse.mpr listed), found.symm⟩

theorem exists_entered {real : String} (walks : Walks fs pattern excludes task visited events later)
    (mem : real ∈ later) :
    real ∈ visited ∨ ∃ path ∈ events.filterMap WalkEvent.path?, fs.realPath? path = some real := by
  obtain ⟨reals, same, rfl, -⟩ := walks.visited_eq
  rcases List.mem_append.mp mem with mem | before
  · have listed := List.mem_map_of_mem (f := some) (List.mem_reverse.mp mem)
    rw [← same] at listed
    exact .inr (List.mem_map.mp listed)
  · exact .inl before

/-! ## What a walk meets -/

/-- An entry that is before a walk at the start, or is listed in a directory that it enters. -/
def Meets (fs : FileSystem) (task : WalkTask) (events : List WalkEvent) (directory : String)
    (item : FileSystem.Listed) : Prop :=
  (∃ items, task = .entries directory items ∧ item ∈ items) ∨
    directory ∈ events.filterMap WalkEvent.path? ∧ item ∈ (fs.list? directory).getD []

theorem Meets.of_entries {fs : FileSystem} {path directory : String} {events : List WalkEvent}
    {item : FileSystem.Listed}
    (meets : Meets fs (.entries path ((fs.list? path).getD [])) events directory item) :
    Meets fs (.enter path) (.entered path :: events) directory item := by
  rcases meets with ⟨items, same, listed⟩ | ⟨entered, listed⟩
  · cases same
    exact .inr ⟨List.mem_cons_self, listed⟩
  · exact .inr ⟨List.mem_cons_of_mem _ entered, listed⟩

theorem Meets.to_entries {fs : FileSystem} {path directory : String} {events : List WalkEvent}
    {item : FileSystem.Listed} (meets : Meets fs (.enter path) (.entered path :: events) directory item) :
    Meets fs (.entries path ((fs.list? path).getD [])) events directory item := by
  rcases meets with ⟨items, same, -⟩ | ⟨entered, listed⟩
  · cases same
  · rcases List.mem_cons.mp entered with rfl | entered
    · exact .inl ⟨_, rfl, listed⟩
    · exact .inr ⟨entered, listed⟩

theorem Meets.mono {fs : FileSystem} {path directory : String} {events more : List WalkEvent} {item : FileSystem.Listed}
    {items others : List FileSystem.Listed} (meets : Meets fs (.entries path items) events directory item)
    (fewer : items ⊆ others) (sub : events ⊆ more) : Meets fs (.entries path others) more directory item := by
  rcases meets with ⟨_, same, listed⟩ | ⟨entered, listed⟩
  · cases same
    exact .inl ⟨others, rfl, fewer listed⟩
  · exact .inr ⟨List.filterMap_subset _ sub entered, listed⟩

theorem Meets.enter_mono {fs : FileSystem} {path directory : String} {events more : List WalkEvent}
    {item : FileSystem.Listed}
    {task : WalkTask} (meets : Meets fs (.enter path) events directory item) (sub : events ⊆ more) :
    Meets fs task more directory item := by
  rcases meets with ⟨_, same, -⟩ | ⟨entered, listed⟩
  · cases same
  · exact .inr ⟨List.filterMap_subset _ sub entered, listed⟩

/-- A directory is entered because the walk begins there or meets an entry that leads there. -/
theorem origin {path : String} (walks : Walks fs pattern excludes task visited events later)
    (entered : path ∈ events.filterMap WalkEvent.path?) :
    task = .enter path ∨ ∃ directory item, Meets fs task events directory item ∧
      moveAt fs pattern excludes directory item = .enter path := by
  induction walks with
  | stays => cases entered
  | enters _ _ _ ih =>
    rcases List.mem_cons.mp entered with rfl | inside
    · exact .inl rfl
    · rcases ih inside with same | ⟨directory, item, meets, move⟩
      · cases same
      · exact .inr ⟨directory, item, meets.of_entries, move⟩
  | done => cases entered
  | notes move _ ih =>
    rw [List.filterMap_append, path?_of_note move, List.nil_append] at entered
    rcases ih entered with same | ⟨directory, item, meets, move⟩
    · cases same
    · exact .inr ⟨directory, item, meets.mono (List.subset_cons_self _ _) (List.subset_append_right _ _), move⟩
  | @descends directory item _ _ _ _ _ _ _ move _ _ ih_inner ih_rest =>
    rw [List.filterMap_append, List.mem_append] at entered
    rcases entered with entered | entered
    · rcases ih_inner entered with same | ⟨directory, item, meets, move⟩
      · cases same
        exact .inr ⟨directory, item, .inl ⟨_, rfl, List.mem_cons_self⟩, move⟩
      · exact .inr ⟨directory, item, meets.enter_mono (List.subset_append_left _ _), move⟩
    · rcases ih_rest entered with same | ⟨directory, item, meets, move⟩
      · cases same
      · exact .inr ⟨directory, item, meets.mono (List.subset_cons_self _ _) (List.subset_append_right _ _), move⟩

/-- What a walk comes across is at an entry that it meets. -/
theorem noted {event : WalkEvent} (walks : Walks fs pattern excludes task visited events later) (mem : event ∈ events)
    (placed : event.path? = none) : ∃ directory item seen, Meets fs task events directory item ∧
      moveAt fs pattern excludes directory item = .note seen ∧ event ∈ seen := by
  induction walks with
  | stays => cases mem
  | enters _ _ _ ih =>
    rcases List.mem_cons.mp mem with rfl | inside
    · cases placed
    · obtain ⟨directory, item, seen, meets, rest⟩ := ih inside
      exact ⟨directory, item, seen, meets.of_entries, rest⟩
  | done => cases mem
  | @notes directory item _ _ seen _ _ move _ ih =>
    rcases List.mem_append.mp mem with here | after
    · exact ⟨directory, item, seen, .inl ⟨_, rfl, List.mem_cons_self⟩, move, here⟩
    · obtain ⟨directory, item, seen, meets, rest⟩ := ih after
      exact ⟨directory, item, seen, meets.mono (List.subset_cons_self _ _) (List.subset_append_right _ _), rest⟩
  | descends _ _ _ ih_inner ih_rest =>
    rcases List.mem_append.mp mem with inside | after
    · obtain ⟨directory, item, seen, meets, rest⟩ := ih_inner inside
      exact ⟨directory, item, seen, meets.enter_mono (List.subset_append_left _ _), rest⟩
    · obtain ⟨directory, item, seen, meets, rest⟩ := ih_rest after
      exact ⟨directory, item, seen, meets.mono (List.subset_cons_self _ _) (List.subset_append_right _ _), rest⟩

theorem visits {path real : String} (walks : Walks fs pattern excludes (.enter path) visited events later)
    (led : fs.realPath? path = some real) : real ∈ later := by
  cases walks with
  | stays seen => exact seen real led
  | enters led' _ inside =>
    cases led.symm.trans led'
    exact inside.visited_subset List.mem_cons_self

/-- An entry is not passed over: it is noted, or the directory it leads to is visited in the end. -/
structure Handled (fs : FileSystem) (pattern : String) (excludes : List String)
    (events : List WalkEvent) (later : List String)
    (directory : String) (item : FileSystem.Listed) : Prop where
  noted : ∀ seen, moveAt fs pattern excludes directory item = .note seen → seen ⊆ events
  visited : ∀ child real, moveAt fs pattern excludes directory item = .enter child →
    fs.realPath? child = some real → real ∈ later

theorem Handled.mono {more : List WalkEvent} {last : List String} {directory : String} {item : FileSystem.Listed}
    (handled : Handled fs pattern excludes events later directory item) (sub : events ⊆ more) (further : later ⊆ last) :
    Handled fs pattern excludes more last directory item where
  noted := fun seen move => List.Subset.trans (handled.noted seen move) sub
  visited := fun child real move led => further (handled.visited child real move led)

theorem handles {directory : String} {item : FileSystem.Listed}
    (walks : Walks fs pattern excludes task visited events later)
    (meets : Meets fs task events directory item) : Handled fs pattern excludes events later directory item := by
  induction walks with
  | stays =>
    rcases meets with ⟨_, same, -⟩ | ⟨entered, -⟩
    · cases same
    · cases entered
  | enters _ _ _ ih => exact (ih meets.to_entries).mono (List.subset_cons_self _ _) (List.Subset.refl _)
  | done =>
    rcases meets with ⟨_, same, listed⟩ | ⟨entered, -⟩
    · cases same
      cases listed
    · cases entered
  | notes move _ ih =>
    rcases meets with ⟨_, same, listed⟩ | ⟨entered, listed⟩
    · cases same
      rcases List.mem_cons.mp listed with rfl | listed
      · constructor
        · intro seen move'
          cases move.symm.trans move'
          exact List.subset_append_left _ _
        · intro child real move'
          cases move.symm.trans move'
      · exact (ih (.inl ⟨_, rfl, listed⟩)).mono (List.subset_append_right _ _) (List.Subset.refl _)
    · rw [List.filterMap_append, path?_of_note move, List.nil_append] at entered
      exact (ih (.inr ⟨entered, listed⟩)).mono (List.subset_append_right _ _) (List.Subset.refl _)
  | descends move walks_inner walks_rest ih_inner ih_rest =>
    rcases meets with ⟨_, same, listed⟩ | ⟨entered, listed⟩
    · cases same
      -- The directory that the first entry leads to is visited by the way into it, or was before.
      rcases List.mem_cons.mp listed with rfl | listed
      · constructor
        · intro seen move'
          cases move.symm.trans move'
        · intro child real move' led
          cases move.symm.trans move'
          exact walks_rest.visited_subset (walks_inner.visits led)
      · exact (ih_rest (.inl ⟨_, rfl, listed⟩)).mono (List.subset_append_right _ _) (List.Subset.refl _)
    · rw [List.filterMap_append, List.mem_append] at entered
      rcases entered with entered | entered
      · exact (ih_inner (.inr ⟨entered, listed⟩)).mono (List.subset_append_left _ _) walks_rest.visited_subset
      · exact (ih_rest (.inr ⟨entered, listed⟩)).mono (List.subset_append_right _ _) (List.Subset.refl _)

end Walks

/-! ## The end of a walk -/

/-- The number of directories that a walk has yet to visit. -/
def unvisited (tree : FileTree) (visited : List String) : Nat :=
  tree.directories.countP fun directory => !visited.contains (pathOf directory)

theorem unvisited_le (tree : FileTree) {visited later : List String} (sub : visited ⊆ later) :
    unvisited tree later ≤ unvisited tree visited := by
  refine List.countP_mono_left fun directory _ new => ?_
  simp only [Bool.not_eq_true', ← Bool.not_eq_true, List.contains_iff_mem] at new ⊢
  exact fun mem => new (sub mem)

theorem unvisited_cons_lt {tree : FileTree} {directory : Location} {visited : List String}
    (is_directory : tree.entry? directory = some .directory) (new : pathOf directory ∉ visited) :
    unvisited tree (pathOf directory :: visited) < unvisited tree visited := by
  have fewer : ∀ other : Location, (!(pathOf directory :: visited).contains (pathOf other)) = true →
      (!visited.contains (pathOf other)) = true := by
    intro other apart
    simp only [Bool.not_eq_true', ← Bool.not_eq_true, List.contains_iff_mem, List.mem_cons, not_or] at apart ⊢
    exact apart.2
  obtain ⟨before, after, whole⟩ := List.append_of_mem (mem_directories is_directory)
  have first := List.countP_mono_left fun other (_ : other ∈ before) => fewer other
  have second := List.countP_mono_left fun other (_ : other ∈ after) => fewer other
  unfold unvisited
  rw [whole, List.countP_append, List.countP_append, List.countP_cons_of_neg (by simp),
    List.countP_cons_of_pos (by simpa using new)]
  omega

/-- A path by which a directory is read leads to the directory that counts as visited. -/
theorem real_of_list? {path real : String} {items : List FileSystem.Listed} (led : fs.realPath? path = some real)
    (listed : fs.list? path = some items) : ∃ directory, fs.locate FileSystem.maxLinks path = .ok directory ∧
      fs.tree.entry? directory = some .directory ∧ items = fs.tree.listing directory ∧ real = pathOf directory := by
  obtain ⟨directory, located, is_directory, rfl⟩ := FileSystem.list?_eq_some.mp listed
  obtain ⟨resolved, found, rfl⟩ := FileSystem.realPath?_eq_some.mp led
  obtain rfl := FileSystem.locate_eq_resolve located found
  exact ⟨directory, located, is_directory, rfl, rfl⟩

theorem unvisited_lt_of_list? {path real : String} {visited : List String} {items : List FileSystem.Listed}
    (led : fs.realPath? path = some real) (new : real ∉ visited) (listed : fs.list? path = some items) :
    unvisited fs.tree (real :: visited) < unvisited fs.tree visited := by
  obtain ⟨directory, -, is_directory, -, rfl⟩ := real_of_list? led listed
  exact unvisited_cons_lt is_directory new

theorem exists_walks_entries {visited : List String}
    (enter : ∀ child later, visited ⊆ later → ∃ events last, Walks fs pattern excludes (.enter child) later events last)
    (directory : String) (items : List FileSystem.Listed) :
    ∃ events later, Walks fs pattern excludes (.entries directory items) visited events later := by
  induction items generalizing visited with
  | nil => exact ⟨_, _, .done⟩
  | cons item rest ih =>
    cases move : moveAt fs pattern excludes directory item with
    | note seen =>
      obtain ⟨events, later, walks⟩ := ih enter
      exact ⟨_, _, .notes move walks⟩
    | enter child =>
      obtain ⟨inner, between, walks_inner⟩ := enter child visited (List.Subset.refl _)
      obtain ⟨events, later, walks⟩ := ih fun child later sub =>
        enter child later (List.Subset.trans walks_inner.visited_subset sub)
      exact ⟨_, _, .descends move walks_inner walks⟩

/-- A walk comes to an end from any path, whatever was visited before. -/
theorem exists_walks {bound : Nat} {visited : List String} (bounded : unvisited fs.tree visited < bound)
    (path : String) :
    ∃ events later, Walks fs pattern excludes (.enter path) visited events later := by
  induction bound generalizing visited path with
  | zero => omega
  | succ bound ih =>
    cases led : fs.realPath? path with
    | none => exact ⟨_, _, .stays fun real found => by rw [led] at found; cases found⟩
    | some real =>
      by_cases seen : real ∈ visited
      · refine ⟨_, _, .stays fun other found => ?_⟩
        cases led.symm.trans found
        exact seen
      · suffices inside : ∃ events later,
            Walks fs pattern excludes (.entries path ((fs.list? path).getD [])) (real :: visited) events later by
          obtain ⟨events, later, walks⟩ := inside
          exact ⟨_, _, .enters led seen walks⟩
        cases listed : fs.list? path with
        | none => exact ⟨_, _, .done⟩
        | some items =>
          -- A directory is read only where one was left to visit.
          have fewer := unvisited_lt_of_list? led seen listed
          refine exists_walks_entries (fun child later sub => ih ?_ child) path items
          have less := unvisited_le fs.tree sub
          omega

/-- The steps of a walk with a bound on its depth. -/
def WalkTask.run (fs : FileSystem) (pattern : String) (excludes : List String) (fuel : Nat) : WalkTask → Walk → Walk
  | .enter path => walkDirectory fs pattern excludes fuel path
  | .entries directory items => fun walk => items.foldl (visit fs pattern excludes fuel directory) walk

/-- With more steps than there are directories to visit, the bound does not show. -/
theorem Walks.run_eq {task : WalkTask} {visited later : List String} {events : List WalkEvent}
    (walks : Walks fs pattern excludes task visited events later) {fuel : Nat}
    (enough : unvisited fs.tree visited < fuel)
    (sightings : List Sighting) : task.run fs pattern excludes fuel ⟨visited, sightings⟩ =
      ⟨later, sightings ++ events.filterMap WalkEvent.sighting?⟩ := by
  induction walks generalizing fuel sightings with
  | @stays path visited seen =>
    obtain ⟨fuel, rfl⟩ : ∃ k, fuel = k + 1 := ⟨fuel - 1, by omega⟩
    rw [WalkTask.run, walkDirectory_succ, List.filterMap_nil, List.append_nil]
    cases led : fs.realPath? path with
    | none => rfl
    | some real => exact if_pos (List.contains_iff_mem.mpr (seen real led))
  | @enters path real visited events later led new inside ih =>
    -- One step is used up, and one directory fewer is left to visit.
    obtain ⟨fuel, rfl⟩ : ∃ k, fuel = k + 1 := ⟨fuel - 1, by omega⟩
    have unseen : ¬ visited.contains real = true := fun seen => new (List.contains_iff_mem.mp seen)
    simp only [WalkTask.run, walkDirectory_succ, led, if_neg unseen]
    cases listed : fs.list? path with
    | none =>
      rw [listed] at inside
      cases inside
      simp [WalkEvent.sighting?]
    | some items =>
      have fewer := unvisited_lt_of_list? led new listed
      rw [listed] at ih
      exact ih (by omega) sightings
  | done => simp [WalkTask.run]
  | @notes directory item items visited seen events later move _ ih =>
    have first := visit_eq fs pattern excludes fuel directory ⟨visited, sightings⟩ item
    simp only [move] at first
    simp only [WalkTask.run, List.foldl_cons] at ih ⊢
    rw [first, ih enough, List.filterMap_append, List.append_assoc]
  | @descends directory item items child visited inner between events later move walks_inner _ ih_inner ih_rest =>
    have first := visit_eq fs pattern excludes fuel directory ⟨visited, sightings⟩ item
    have less := unvisited_le fs.tree walks_inner.visited_subset
    simp only [move] at first
    simp only [WalkTask.run, List.foldl_cons] at ih_inner ih_rest ⊢
    rw [first, ih_inner enough, ih_rest (by omega), List.filterMap_append, List.append_assoc]

/-! ## Each directory once -/

namespace Walks
variable {task : WalkTask} {visited later : List String} {events : List WalkEvent}

theorem nodup_realPaths (walks : Walks fs pattern excludes task visited events later) (nodup : visited.Nodup) :
    ((events.filterMap WalkEvent.path?).map fs.realPath?).Nodup := by
  obtain ⟨reals, same, rfl, distinct⟩ := walks.visited_eq
  rw [same]
  exact ((List.nodup_reverse.mp (List.nodup_append.mp (distinct nodup)).1)).map (Option.some_injective String)

theorem not_mem_of_entered {path real : String} (walks : Walks fs pattern excludes task visited events later)
    (nodup : visited.Nodup) (entered : path ∈ events.filterMap WalkEvent.path?) (led : fs.realPath? path = some real) :
    real ∉ visited := by
  obtain ⟨reals, same, rfl, distinct⟩ := walks.visited_eq
  have mem := List.mem_map_of_mem (f := fs.realPath?) entered
  rw [same, led] at mem
  obtain ⟨_, listed, found⟩ := List.mem_map.mp mem
  cases found
  exact fun before => (List.nodup_append.mp (distinct nodup)).2.2 _ (List.mem_reverse.mpr listed) _ before rfl

/-- A directory is not entered by two paths. -/
theorem eq_of_locate {path other : String} {directory : Location}
    (walks : Walks fs pattern excludes task visited events later)
    (nodup : visited.Nodup) (entered : path ∈ events.filterMap WalkEvent.path?)
    (entered' : other ∈ events.filterMap WalkEvent.path?) (located : fs.locate FileSystem.maxLinks path = .ok directory)
    (located' : fs.locate FileSystem.maxLinks other = .ok directory) : path = other := by
  have leads : ∀ {path}, path ∈ events.filterMap WalkEvent.path? → fs.locate FileSystem.maxLinks path = .ok directory →
      fs.realPath? path = some (pathOf directory) := by
    intro path entered located
    obtain ⟨real, -, led⟩ := walks.mem_visited entered
    obtain ⟨resolved, found, rfl⟩ := FileSystem.realPath?_eq_some.mp led
    rw [led, FileSystem.locate_eq_resolve located found]
  exact List.inj_on_of_nodup_map (walks.nodup_realPaths nodup) entered entered'
    ((leads entered located).trans (leads entered' located').symm)

/-- What a walk comes across lies in a directory that is before it, under the name of an entry, or in one that
it enters. -/
theorem place_cases {directory name : String} (walks : Walks fs pattern excludes task visited events later)
    (mem : (directory, name) ∈ events.filterMap WalkEvent.place?) :
    ∃ item, Meets fs task events directory item ∧ item.name = name := by
  obtain ⟨event, listed, placed⟩ := List.mem_filterMap.mp mem
  have no_path : event.path? = none := by
    cases event with
    | entered path => cases placed
    | found | missed => rfl
  obtain ⟨directory', item, seen, meets, move, here⟩ := walks.noted listed no_path
  rcases note_cases move with rfl | rfl | rfl
  · cases here
  · rw [List.mem_singleton.mp here] at placed
    cases placed
    exact ⟨item, meets, rfl⟩
  · rw [List.mem_singleton.mp here] at placed
    cases placed
    exact ⟨item, meets, rfl⟩

end Walks

/-- The entries before a walk have different names, and their directory counts as visited. -/
def WalkTask.Distinct (fs : FileSystem) (visited : List String) : WalkTask → Prop
  | .enter _ => True
  | .entries directory items => items.Pairwise (·.name ≠ ·.name) ∧ ∃ real ∈ visited, fs.realPath? directory = some real

theorem Walks.nodup_places {task : WalkTask} {visited later : List String} {events : List WalkEvent}
    (walks : Walks fs pattern excludes task visited events later) (nodup : visited.Nodup)
    (distinct : task.Distinct fs visited) :
    (events.filterMap WalkEvent.place?).Nodup := by
  induction walks with
  | stays => exact .nil
  | @enters path real visited events later led new _ ih =>
    have inside : WalkTask.Distinct fs (real :: visited) (.entries path ((fs.list? path).getD [])) := by
      refine ⟨?_, real, List.mem_cons_self, led⟩
      cases listed : fs.list? path with
      | none => exact .nil
      | some items =>
        obtain ⟨directory, -, -, rfl, -⟩ := real_of_list? led listed
        exact (fs.tree.increasing_listing directory).imp Text.Utf8.Precedes.ne
    exact ih (List.nodup_cons.mpr ⟨new, nodup⟩) inside
  | done => exact .nil
  | @notes directory item items visited seen events later move rest ih =>
    obtain ⟨increasing, real, seen_real, led⟩ := distinct
    obtain ⟨before, increasing_rest⟩ := List.pairwise_cons.mp increasing
    have here : ∀ place ∈ seen.filterMap WalkEvent.place?, place = (directory, item.name) := by
      rcases note_cases move with rfl | rfl | rfl <;> simp [WalkEvent.place?]
    have single : (seen.filterMap WalkEvent.place?).Nodup := by
      rcases note_cases move with rfl | rfl | rfl <;> simp [WalkEvent.place?]
    rw [List.filterMap_append]
    refine List.nodup_append.mpr ⟨single, ih nodup ⟨increasing_rest, real, seen_real, led⟩, ?_⟩
    -- The same place again would need another entry of this name, or this directory a second time.
    rintro place mem ⟨directory', name⟩ mem' rfl
    cases here _ mem
    obtain ⟨other, meets, same⟩ := rest.place_cases mem'
    rcases meets with ⟨_, ⟨⟩, listed⟩ | ⟨entered, -⟩
    · exact absurd same.symm (before other listed)
    · exact rest.not_mem_of_entered nodup entered led seen_real
  | @descends directory item items child visited inner between events later move walks_inner rest ih_inner ih_rest =>
    obtain ⟨increasing, real, seen_real, led⟩ := distinct
    obtain ⟨-, increasing_rest⟩ := List.pairwise_cons.mp increasing
    obtain ⟨_, -, -, still_nodup⟩ := walks_inner.visited_eq
    rw [List.filterMap_append]
    refine List.nodup_append.mpr ⟨ih_inner nodup trivial,
      ih_rest (still_nodup nodup) ⟨increasing_rest, real, walks_inner.visited_subset seen_real, led⟩, ?_⟩
    rintro ⟨directory', name⟩ mem place mem' rfl
    obtain ⟨_, meets, -⟩ := walks_inner.place_cases mem
    rcases meets with ⟨_, ⟨⟩, -⟩ | ⟨entered, -⟩
    obtain ⟨real', between_real, led'⟩ := walks_inner.mem_visited entered
    -- The directory of the place was visited on the way in, so that what comes after the way in does not
    -- enter it again.
    obtain ⟨_, meets', -⟩ := rest.place_cases mem'
    rcases meets' with ⟨_, ⟨⟩, -⟩ | ⟨entered', -⟩
    · exact walks_inner.not_mem_of_entered nodup entered led seen_real
    · exact rest.not_mem_of_entered (still_nodup nodup) entered' led' between_real

/-! ## Paths of a walk -/

/-- A path from the root on that is written in the shortest way. -/
def Tidy (path : String) : Prop := Path.isAbs path = true ∧ Path.clean path = path

instance (path : String) : Decidable (Tidy path) := inferInstanceAs (Decidable (_ ∧ _))

theorem tidy_join {path : String} (rooted : Path.isAbs path = true) (name : String) :
    Tidy (Path.join [path, name]) := by
  refine ⟨Path.isAbs_join rooted name, ?_⟩
  unfold Path.join
  dsimp only
  split
  · rename_i none_left
    simp [Path.ne_empty_of_isAbs rooted] at none_left
  · exact Path.clean_clean _

theorem tidy_pathOf {location : Location} (proper : Path.AllProper location) : Tidy (pathOf location) :=
  ⟨Path.isAbs_ofComponents _, Path.clean_ofComponents fun name mem => proper name (List.mem_reverse.mp mem)⟩

theorem tidy_base_trail {location : Location} (some_name : location ≠ []) (proper : Path.AllProper location) :
    Tidy (Glob.base (trail location)) := by
  obtain ⟨rest, chars⟩ := exists_separator_cons some_name
  obtain ⟨place, last, there⟩ : ∃ place, Glob.lastPlainSeparator (some 0) 1 rest = some place ∧ _ :=
    Glob.lastPlainSeparator_some 1 rest
  have found : Glob.lastPlainSeparator none 0 (trail location).toList = some place := by
    rw [chars, Glob.lastPlainSeparator_separator, last]
  unfold Glob.base
  rewrite [found]
  cases place with
  | zero => exact (by decide : Tidy "/")
  | succ place =>
    have divides : (trail location).toList[place + 1]? = some Glob.separator := by
      rcases there with at_start | ⟨offset, same, there⟩
      · cases at_start
      · have next : place = offset := by omega
        rw [chars, List.getElem?_cons_succ, next, there]
    obtain ⟨inner, part, taken⟩ := take_trail proper divides
    have proper_inner : Path.AllProper (inner.map unescaped) := by
      intro name mem
      obtain ⟨own, listed, rfl⟩ := List.mem_map.mp mem
      exact proper_unescaped (proper own (part.subset listed))
    cases inner with
    | nil => simp [chars, trail] at taken
    | cons name above =>
      have whole : String.ofList (Glob.unescape ((trail location).toList.take (place + 1))) =
          pathOf ((name :: above).map unescaped) := by
        rw [taken, unescape_trail, String.ofList_toList, List.map_cons, FileTree.pathOf_cons]
      change Tidy (String.ofList (Glob.unescape ((trail location).toList.take (place + 1))))
      rw [whole]
      exact tidy_pathOf proper_inner

/-- The directory below which the matches of a tidy pattern lie has a tidy path. -/
theorem tidy_base {pattern : String} (tidy : Tidy pattern) : Tidy (Glob.base (widen pattern)) := by
  have names := Path.proper_of_mem_components tidy.1
  have whole : pattern = pathOf (Path.components pattern).reverse := by
    rw [pathOf, List.reverse_reverse]
    exact Path.eq_ofComponents_of_clean tidy.1 tidy.2
  have proper : Path.AllProper (Path.components pattern).reverse := fun name mem => names name (List.mem_reverse.mp mem)
  cases location : (Path.components pattern).reverse with
  | nil =>
    have root : pattern = "/" := by rw [whole, location]; rfl
    rw [root]
    exact (by decide : Tidy (Glob.base (widen "/")))
  | cons name above =>
    rw [location] at whole proper
    rw [FileTree.pathOf_cons] at whole
    unfold widen
    split
    · have wider : pattern ++ "/**/*" = trail ("*" :: "**" :: name :: above) := by
        rw [whole]
        simp [trail, String.append_assoc]
      rw [wider]
      have star : Path.Proper "*" := by decide
      have double_star : Path.Proper "**" := by decide
      exact tidy_base_trail (List.cons_ne_nil _ _)
        (List.forall_mem_cons.mpr ⟨star, List.forall_mem_cons.mpr ⟨double_star, proper⟩⟩)
    · rw [whole]
      exact tidy_base_trail (List.cons_ne_nil _ _) proper

/-- A property of the paths before a walk. -/
def WalkTask.Starts (fs : FileSystem) (P : String → Prop) : WalkTask → Prop
  | .enter path => P path
  | .entries directory items => P directory ∧ items ⊆ (fs.list? directory).getD []

/-- What holds of the first path of a walk, and passes from a directory to those it leads to, holds of all
paths that are entered. -/
theorem Walks.of_entered {P : String → Prop} {task : WalkTask} {visited later : List String} {events : List WalkEvent}
    (walks : Walks fs pattern excludes task visited events later) (starts : task.Starts fs P)
    (step : ∀ {directory item child}, P directory → item ∈ (fs.list? directory).getD [] →
      moveAt fs pattern excludes directory item = .enter child → P child) :
    ∀ path ∈ events.filterMap WalkEvent.path?, P path := by
  induction walks with
  | stays => simp
  | enters _ _ _ ih => exact List.forall_mem_cons.mpr ⟨starts, ih ⟨starts, List.Subset.refl _⟩⟩
  | done => simp
  | notes move _ ih =>
    rw [List.filterMap_append, path?_of_note move, List.nil_append]
    exact ih ⟨starts.1, (List.cons_subset.mp starts.2).2⟩
  | descends move _ _ ih_inner ih_rest =>
    obtain ⟨listed, listed_rest⟩ := List.cons_subset.mp starts.2
    intro path entered
    rw [List.filterMap_append, List.mem_append] at entered
    rcases entered with entered | entered
    · exact ih_inner (step starts.1 listed move) path entered
    · exact ih_rest ⟨starts.1, listed_rest⟩ path entered

theorem Walks.tidy {base path : String} {visited later : List String} {events : List WalkEvent}
    (walks : Walks fs pattern excludes (.enter base) visited events later) (tidy : Tidy base)
    (entered : path ∈ events.filterMap WalkEvent.path?) : Tidy path := by
  refine walks.of_entered (P := Tidy) tidy (fun above _ move => ?_) path entered
  rw [enter_eq move]
  exact tidy_join above.1 _

namespace Tidy
variable {path name : String} (tidy : Tidy path) (proper : Path.Proper name)
include tidy

theorem eq_ofComponents : path = Path.ofComponents true (Path.components path) :=
  Path.eq_ofComponents_of_clean tidy.1 tidy.2

include proper

theorem allProper_append : Path.AllProper (Path.components path ++ [name]) := by
  intro other mem
  rcases List.mem_append.mp mem with mem | mem
  · exact Path.proper_of_mem_components tidy.1 other mem
  · rw [List.mem_singleton.mp mem]
    exact proper

theorem join_eq : Path.join [path, name] = Path.ofComponents true (Path.components path ++ [name]) := by
  rw [← Path.join_proper (Path.proper_of_mem_components tidy.1) proper, ← tidy.eq_ofComponents]

theorem components_join : Path.components (Path.join [path, name]) = Path.components path ++ [name] := by
  rw [tidy.join_eq proper, Path.components_ofComponents (tidy.allProper_append proper)]

theorem dir_join : Path.dir (Path.join [path, name]) = path := by
  rw [tidy.join_eq proper, Path.dir_ofComponents (tidy.allProper_append proper), ← tidy.eq_ofComponents]

theorem splitLast_join : (Path.splitLast (Path.join [path, name])).2 = name := by
  rw [tidy.join_eq proper, Path.splitLast_ofComponents _ proper.no_slash]

end Tidy

/-! ## Main statement -/

def readings (fs : FileSystem) (events : List WalkEvent) : List String :=
  (events.filterMap WalkEvent.path?).filter fun path => (fs.list? path).isSome

def Sighting.path : Sighting → String
  | .file path => path
  | .dangling path => path

/-- Two places have one name in one directory, which may be read by two paths. -/
def SamePlace (fs : FileSystem) (place other : String × String) : Prop :=
  place.2 = other.2 ∧ fs.locate FileSystem.maxLinks place.1 = fs.locate FileSystem.maxLinks other.1

/-- Two paths stand for entries of one name in one directory. -/
def SameEntry (fs : FileSystem) (path other : String) : Prop :=
  (Path.splitLast path).2 = (Path.splitLast other).2 ∧
    fs.locate FileSystem.maxLinks (Path.dir path) = fs.locate FileSystem.maxLinks (Path.dir other)

theorem paths_eq (events : List WalkEvent) : (events.filterMap WalkEvent.sighting?).map Sighting.path =
    (events.filterMap WalkEvent.place?).map fun place => Path.join [place.1, place.2] := by
  induction events with
  | nil => rfl
  | cons event rest ih =>
    cases event with
    | entered path => exact ih
    | found directory name => exact congrArg (Path.join [directory, name] :: ·) ih
    | missed directory name => exact congrArg (Path.join [directory, name] :: ·) ih

namespace Walks
variable {base : String} {later : List String} {events : List WalkEvent}

theorem exists_located {directory : String} {item : FileSystem.Listed} (listed : item ∈ (fs.list? directory).getD []) :
    ∃ location, fs.locate FileSystem.maxLinks directory = .ok location ∧ fs.tree.entry? location = some .directory ∧
      fs.tree.entry? (item.name :: location) = some item.entry := by
  cases found : fs.list? directory with
  | none =>
    rw [found] at listed
    cases listed
  | some items =>
    rw [found] at listed
    obtain ⟨location, located, is_directory, rfl⟩ := FileSystem.list?_eq_some.mp found
    exact ⟨location, located, is_directory, FileTree.mem_listing.mp listed⟩

theorem readings_located (walks : Walks fs pattern excludes (.enter base) [] events later) :
    (readings fs events).Pairwise fun path other =>
      fs.locate FileSystem.maxLinks path ≠ fs.locate FileSystem.maxLinks other := by
  have distinct := ((walks.nodup_realPaths .nil).of_map).filter fun path => (fs.list? path).isSome
  refine distinct.imp_of_mem fun {path other} mem mem' differs same => ?_
  obtain ⟨entered, listed⟩ := List.mem_filter.mp mem
  obtain ⟨items, listed⟩ := Option.isSome_iff_exists.mp listed
  obtain ⟨location, located, -⟩ := FileSystem.list?_eq_some.mp listed
  exact differs (walks.eq_of_locate .nil entered (List.mem_filter.mp mem').1 located (same ▸ located))

theorem length_readings (walks : Walks fs pattern excludes (.enter base) [] events later) :
    (readings fs events).length ≤ fs.tree.directories.length := by
  have distinct : ((readings fs events).map (fs.locate FileSystem.maxLinks)).Nodup :=
    List.pairwise_map.mpr walks.readings_located
  have sub : (readings fs events).map (fs.locate FileSystem.maxLinks) ⊆ fs.tree.directories.map Except.ok := by
    intro place mem
    obtain ⟨path, read, rfl⟩ := List.mem_map.mp mem
    obtain ⟨items, listed⟩ := Option.isSome_iff_exists.mp (List.mem_filter.mp read).2
    obtain ⟨location, located, is_directory, -⟩ := FileSystem.list?_eq_some.mp listed
    exact List.mem_map.mpr ⟨location, mem_directories is_directory, located.symm⟩
  simpa using (distinct.subperm sub).length_le

theorem of_place (formed : fs.tree.WellFormed) (walks : Walks fs pattern excludes (.enter base) [] events later)
    {place : String × String} (mem : place ∈ events.filterMap WalkEvent.place?) :
    place.1 ∈ events.filterMap WalkEvent.path? ∧ Path.Proper place.2 ∧
      ∃ location, fs.locate FileSystem.maxLinks place.1 = .ok location := by
  obtain ⟨item, meets, same⟩ := walks.place_cases mem
  rcases meets with ⟨_, ⟨⟩, -⟩ | ⟨entered, listed⟩
  obtain ⟨location, located, -, held⟩ := exists_located listed
  exact ⟨entered, same ▸ (formed.usable held).toProper, location, located⟩

theorem places_apart (formed : fs.tree.WellFormed) (walks : Walks fs pattern excludes (.enter base) [] events later) :
    (events.filterMap WalkEvent.place?).Pairwise fun place other => ¬ SamePlace fs place other := by
  refine (walks.nodup_places .nil trivial).imp_of_mem fun {place other} mem mem' differs same => ?_
  obtain ⟨entered, -, location, located⟩ := walks.of_place formed mem
  obtain ⟨entered', -⟩ := walks.of_place formed mem'
  exact differs (Prod.ext (walks.eq_of_locate .nil entered entered' located (same.2 ▸ located)) same.1)

theorem entries_apart (formed : fs.tree.WellFormed) (walks : Walks fs pattern excludes (.enter base) [] events later)
    (tidy : Tidy base) :
    ((events.filterMap WalkEvent.sighting?).map Sighting.path).Pairwise fun path other =>
      ¬ SameEntry fs path other := by
  rw [paths_eq, List.pairwise_map]
  refine (walks.places_apart formed).imp_of_mem fun {place other} mem mem' differs same => differs ?_
  obtain ⟨entered, proper, -⟩ := walks.of_place formed mem
  obtain ⟨entered', proper', -⟩ := walks.of_place formed mem'
  have tidy_place := walks.tidy tidy entered
  have tidy_other := walks.tidy tidy entered'
  obtain ⟨same_name, same_directory⟩ := same
  rw [tidy_place.splitLast_join proper, tidy_other.splitLast_join proper'] at same_name
  rw [tidy_place.dir_join proper, tidy_other.dir_join proper'] at same_directory
  exact ⟨same_name, same_directory⟩

end Walks

theorem exists_walks_from (fs : FileSystem) (pattern : String) (excludes : List String) (base : String) :
    ∃ events visited, Walks fs pattern excludes (.enter base) [] events visited ∧
      ∀ fuel, fs.tree.directories.length < fuel → walkDirectory fs pattern excludes fuel base {} =
        ⟨visited, events.filterMap WalkEvent.sighting?⟩ := by
  have few : unvisited fs.tree [] ≤ fs.tree.directories.length := List.countP_le_length
  obtain ⟨events, visited, walks⟩ := exists_walks (Nat.lt_succ_self (unvisited fs.tree [])) base
  exact ⟨events, visited, walks, fun fuel enough => walks.run_eq (Nat.lt_of_le_of_lt few enough) []⟩

theorem exists_walks_sightings (fs : FileSystem) (pattern : String) (excludes : List String) :
    ∃ events visited, Walks fs (widen pattern) excludes (.enter (Glob.base (widen pattern))) [] events visited ∧
      sightings fs pattern excludes = events.filterMap WalkEvent.sighting? := by
  obtain ⟨events, visited, walks, told⟩ := exists_walks_from fs (widen pattern) excludes (Glob.base (widen pattern))
  exact ⟨events, visited, walks, congrArg Walk.sightings (told _ (Nat.lt_succ_self _))⟩

/-- From any base a walk comes to an end, in one way only, whatever links there are, and a bound on its depth
does not show once it is above the number of directories. It reads no directory by two paths, and comes across
no entry of a directory twice. From a base that is tidy, as those of tidy patterns are, the paths that it
tells stand for these entries. -/
theorem walk_reads_directories_once {fs : FileSystem} (formed : fs.tree.WellFormed) (pattern : String)
    (excludes : List String) (base : String) :
    (∃ events visited,
      (∀ events' visited', Walks fs pattern excludes (.enter base) [] events' visited' ↔
      events' = events ∧ visited' = visited) ∧
      (∀ fuel, fs.tree.directories.length < fuel → walkDirectory fs pattern excludes fuel base {} =
        ⟨visited, events.filterMap WalkEvent.sighting?⟩) ∧
      (readings fs events).Pairwise (fun path other =>
        fs.locate FileSystem.maxLinks path ≠ fs.locate FileSystem.maxLinks other) ∧
      (readings fs events).length ≤ fs.tree.directories.length ∧
      (events.filterMap WalkEvent.place?).Pairwise (fun place other => ¬ SamePlace fs place other) ∧
      (Tidy base →
        ((events.filterMap WalkEvent.sighting?).map Sighting.path).Pairwise fun path other =>
        ¬ SameEntry fs path other)) ∧
    (Tidy pattern →
      ((sightings fs pattern excludes).map Sighting.path).Pairwise fun path other => ¬ SameEntry fs path other) := by
  constructor
  · obtain ⟨events, visited, walks, told⟩ := exists_walks_from fs pattern excludes base
    refine ⟨events, visited, fun events' visited' => ⟨fun walks' => walks.unique walks', ?_⟩, told,
      walks.readings_located, walks.length_readings, walks.places_apart formed, walks.entries_apart formed⟩
    rintro ⟨rfl, rfl⟩
    exact walks
  · intro tidy
    obtain ⟨events, visited, walks, told⟩ := exists_walks_sightings fs pattern excludes
    rw [told]
    exact walks.entries_apart formed (tidy_base tidy)

/-- A directory that links lead back to from below, and around one another. -/
def circles : FileSystem where
  tree := ⟨[(["u"], .directory), (["down", "u"], .directory), (["a.ts", "u"], .file []),
    (["b.ts", "down", "u"], .file []), (["up", "down", "u"], .link ".."),
    (["again", "u"], .link "/u/down/up/down"), (["round", "u"], .link "square"),
    (["square", "u"], .link "round")]⟩
  cwd := "/u"
  rooted := by decide

/-- The directory below is read by the link that comes before it, and only so. -/
theorem walk_circles : circles.tree.WellFormed ∧ Tidy "/u/**/*" ∧
    (∃ events visited, Walks circles "/u/**/*" [] (.enter "/u") [] events visited ∧
      (readings circles events).length ≤ circles.tree.directories.length) ∧
    (sightings circles "/u/**/*" []).map Sighting.path = ["/u/a.ts", "/u/again/b.ts", "/u/round", "/u/square"] ∧
    ["/u/a.ts", "/u/again/b.ts", "/u/round", "/u/square"].Pairwise fun path other =>
    ¬ SameEntry circles path other := by
  have formed : circles.tree.WellFormed := by decide
  have tidy : Tidy "/u/**/*" := by decide
  have paths : (sightings circles "/u/**/*" []).map Sighting.path =
      ["/u/a.ts", "/u/again/b.ts", "/u/round", "/u/square"] := by
    decide +kernel
  obtain ⟨⟨events, visited, only, -, -, few, -⟩, apart⟩ := walk_reads_directories_once formed "/u/**/*" [] "/u"
  exact ⟨formed, tidy, ⟨events, visited, (only events visited).mpr ⟨rfl, rfl⟩, few⟩, paths, paths ▸ apart tidy⟩

end
end ScriptLoader.Project
