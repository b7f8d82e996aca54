import ScriptLoader.Proofs.Project.CanonicalPaths
import ScriptLoader.Proofs.Project.Relocation

/-!
Members after a link is added. A link can give a directory a second path, and a walk enters a directory by the
first path it comes to. So a member can be lost, but only where some directory on its way is now entered by
another path, and the next entry on the way is not taken by that path: the patterns do not ask for it there,
or the system does not follow it.
-/

set_option autoImplicit false
namespace ScriptLoader

def FileSystem.addLink (fs : FileSystem) (place : Location) (target : String) : FileSystem :=
  { fs with tree := fs.tree.insert place (.link target) }

theorem FileSystem.grows_addLink {fs : FileSystem} {place : Location} (free : fs.tree.entry? place = none)
    (target : String) :
    fs.Grows (fs.addLink place target) :=
  ⟨FileTree.within_insert free (.link target), rfl⟩

namespace Project
open Relation
open FileSystem (maxLinks)

/-! ## Two walks -/

section
variable {fs other : FileSystem} (grows : fs.Grows other) {pattern : String} {excludes : List String}

theorem leadsToDirectory?_of_stat {path path' : String} {entry : Entry} {leads : Bool}
    (same : ∀ entry, fs.stat path = .ok entry → other.stat path' = .ok entry)
    (told : leadsToDirectory? fs path entry = some leads) :
    leadsToDirectory? other path' entry = some leads := by
  cases entry with
  | directory => exact told
  | file content => exact told
  | link target =>
    unfold leadsToDirectory? at told ⊢
    cases found : fs.stat path with
    | error problem => simp [found] at told
    | ok entry =>
      rw [found] at told
      rw [same entry found]
      exact told

theorem moveAt_eq_enter {directory : String} {item : FileSystem.Listed} :
    moveAt fs pattern excludes directory item = .enter (Path.join [directory, item.name]) ↔
      leadsToDirectory? fs (Path.join [directory, item.name]) item.entry = some true ∧
        Text.startsWith item.name "." = false ∧ isExcluded (Path.join [directory, item.name]) excludes = false := by
  cases leads : leadsToDirectory? fs (Path.join [directory, item.name]) item.entry with
  | none => simp [moveAt, leads]
  | some leads_there =>
    cases leads_there with
    | true => simp [moveAt, leads]
    | false =>
      simp only [moveAt, leads]
      split <;> simp

section
include grows

theorem exists_list? {path : String} {item : FileSystem.Listed} (listed : item ∈ (fs.list? path).getD []) :
    item ∈ (other.list? path).getD [] := by
  obtain ⟨location, located, is_directory, held⟩ := Walks.exists_located listed
  have items : other.list? path = some (other.tree.listing location) :=
    FileSystem.list?_eq_some.mpr ⟨location, grows.locate located, grows.within _ _ is_directory, rfl⟩
  rw [items, Option.getD_some]
  exact FileTree.mem_listing.mpr (grows.within _ _ held)

/-- A walk does the same at an entry that does not lead nowhere. -/
theorem moveAt_grows {directory : String} {item : FileSystem.Listed}
    (leads : moveAt fs pattern excludes directory item ≠ .note [.missed directory item.name]) :
    moveAt other pattern excludes directory item = moveAt fs pattern excludes directory item := by
  cases told : leadsToDirectory? fs (Path.join [directory, item.name]) item.entry with
  | none => exact absurd (by simp only [moveAt, told]) leads
  | some leads_there => simp only [moveAt, told, leadsToDirectory?_of_stat (fun _ => grows.stat) told]

end

def Occurs (fs : FileSystem) (pattern : String) (excludes : List String) (event : WalkEvent) : Prop :=
  ∃ events visited, Walks fs pattern excludes (.enter (Glob.base pattern)) [] events visited ∧ event ∈ events

theorem Walks.occurs_iff {visited : List String} {events : List WalkEvent} {event : WalkEvent}
    (walks : Walks fs pattern excludes (.enter (Glob.base pattern)) [] events visited) :
    Occurs fs pattern excludes event ↔ event ∈ events := by
  constructor
  · rintro ⟨_, _, again, mem⟩
    exact (again.unique walks).1 ▸ mem
  · exact fun mem => ⟨events, visited, walks, mem⟩

theorem mem_entered {events : List WalkEvent} {path : String} :
    path ∈ events.filterMap WalkEvent.path? ↔ .entered path ∈ events := by
  rw [List.mem_filterMap]
  constructor
  · rintro ⟨event, mem, same⟩
    cases event with
    | entered path' =>
      cases same
      exact mem
    | found | missed => cases same
  · exact fun mem => ⟨_, mem, rfl⟩

def Alike (fs : FileSystem) (path path' : String) : Prop :=
  ∃ real, fs.realPath? path = some real ∧ fs.realPath? path' = some real

/-- The system follows a path, in one go and by paths without links. -/
structure Resolves (fs : FileSystem) (path : String) : Prop where
  opens : ∃ entry, fs.stat path = .ok entry
  leads : ∃ real, fs.realPath? path = some real

/-- Why a walk that is in a directory by another path does not take an entry there, on the way to a file. -/
inductive Barred (fs : FileSystem) (pattern : String) (excludes : List String)
    (file directory directory' name : String) : Prop where
  | unread : fs.list? directory' = none → Barred fs pattern excludes file directory directory' name
  | excluded : isExcluded (Path.join [directory', name]) excludes = true →
      Barred fs pattern excludes file directory directory' name
  | unmatched : Path.join [directory, name] = file → Glob.isMatch pattern (Path.join [directory', name]) = false →
      Barred fs pattern excludes file directory directory' name
  | nowhere : ¬ (Resolves fs (Path.join [directory, name]) ∧ Resolves fs (Path.join [directory', name])) →
      Barred fs pattern excludes file directory directory' name

/-- A directory on the way to a file is entered by another path than before, by which the next entry is not
taken. No path leads the second walk on to what that entry leads to. -/
structure Displaced (fs other : FileSystem) (pattern : String) (excludes : List String)
    (file directory directory' name : String) : Prop where
  on_way : Path.join [directory, name] ∈ Path.ancestors file
  before : Occurs fs pattern excludes (.entered directory)
  no_more : ¬ Occurs other pattern excludes (.entered directory)
  after : Occurs other pattern excludes (.entered directory')
  alike : Alike other directory directory'
  barred : Barred other pattern excludes file directory directory' name
  unvisited : Path.join [directory, name] ≠ file →
    ∀ path, Occurs other pattern excludes (.entered path) → ¬ Alike other (Path.join [directory, name]) path

def IsDisplaced (fs other : FileSystem) (pattern : String) (excludes : List String) (file : String) : Prop :=
  ∃ directory directory' name, Displaced fs other pattern excludes file directory directory' name

/-! ## The way to a file -/

theorem mem_ancestors_self {path : String} (tidy : Tidy path) : path ∈ Path.ancestors path := by
  refine List.mem_map.mpr ⟨(Path.components path).reverse, ?_, ?_⟩
  · rw [Path.tails_eq, List.mem_tails]
  · rw [tidy.1, List.reverse_reverse, ← tidy.eq_ofComponents]

theorem mem_ancestors_of_join {path name file : String} (rooted : Path.isAbs file = true) (tidy : Tidy path)
    (proper : Path.Proper name)
    (on_way : Path.join [path, name] ∈ Path.ancestors file) : path ∈ Path.ancestors file := by
  obtain ⟨names, part, spelled⟩ := List.mem_map.mp on_way
  rw [Path.tails_eq, List.mem_tails] at part
  have all_proper : Path.AllProper names.reverse := fun other mem =>
    Path.proper_of_mem_components rooted other (List.mem_reverse.mp (part.subset (List.mem_reverse.mp mem)))
  have whole := congrArg Path.components spelled
  rw [rooted, Path.components_ofComponents all_proper, tidy.components_join proper] at whole
  obtain rfl : names = name :: (Path.components path).reverse := by
    rw [← List.reverse_reverse names, whole, List.reverse_append, List.reverse_singleton, List.singleton_append]
  refine List.mem_map.mpr ⟨(Path.components path).reverse, ?_, ?_⟩
  · rw [Path.tails_eq, List.mem_tails]
    exact (List.suffix_cons _ _).trans part
  · rw [rooted, List.reverse_reverse, ← tidy.eq_ofComponents]

theorem isSome_list? {path : String} {item : FileSystem.Listed} (listed : item ∈ (fs.list? path).getD []) :
    (fs.list? path).isSome = true := by
  cases found : fs.list? path with
  | none =>
    rw [found] at listed
    cases listed
  | some items => rfl

/-! ## One directory by two paths -/

section
variable {directory directory' : String} {items items' : List FileSystem.Listed}

theorem Alike.exists_location (alike : Alike fs directory directory') (listed : fs.list? directory = some items)
    (listed' : fs.list? directory' = some items') :
    items' = items ∧ ∃ location, fs.tree.entry? location = some .directory ∧
      fs.locate maxLinks directory = .ok location ∧ fs.locate maxLinks directory' = .ok location := by
  obtain ⟨real, led, led'⟩ := alike
  obtain ⟨location, located, is_directory, rfl, rfl⟩ := real_of_list? led listed
  obtain ⟨location', located', -, rfl, same⟩ := real_of_list? led' listed'
  have proper : ∀ {path place}, fs.realPath? path = some (FileTree.pathOf location) →
    fs.locate maxLinks path = .ok place →
      Path.AllProper place := by
    intro path place led located name mem
    obtain ⟨resolved, found, -⟩ := FileSystem.realPath?_eq_some.mp led
    obtain rfl := FileSystem.locate_eq_resolve located found
    exact ((FileSystem.reached_of_resolve found).usable name mem).toProper
  obtain rfl := Walk.pathOf_injective (proper led located) (proper led' located') same
  exact ⟨rfl, location, is_directory, located, located'⟩

/-- A name in a directory leads to one place, by whichever path the directory is read. -/
theorem eq_of_resolve_join {name : String} {location place place' : Location} (tidy : Tidy directory)
    (tidy' : Tidy directory')
    (proper : Path.Proper name) (located : fs.locate maxLinks directory = .ok location)
    (located' : fs.locate maxLinks directory' = .ok location)
    (found : fs.resolve (Path.join [directory, name]) = .ok place)
    (found' : fs.resolve (Path.join [directory', name]) = .ok place') : place' = place := by
  have onward : ∀ {path place}, Tidy path → fs.locate maxLinks path = .ok location →
      fs.resolve (Path.join [path, name]) = .ok place →
      fs.tree.follow FileSystem.maxRealLinks location [name] = .ok place := by
    intro path place tidy located found
    have followed := FileSystem.follow_of_resolve found
    rw [FileSystem.namesOf_of_isAbs (tidy_join tidy.1 name).1, follow_join tidy proper] at followed
    obtain ⟨middle, left, fewer, before, after⟩ := FileTree.follow_append (List.cons_ne_nil name []) followed
    have reached :=
      FileTree.follow_mono (.refl _) (by decide : maxLinks ≤ FileSystem.maxRealLinks)
        (FileSystem.follow_of_locate tidy.1 located)
    cases before.symm.trans reached
    exact FileTree.follow_mono (.refl _) fewer after
  exact Except.ok.inj ((onward tidy' located' found').symm.trans (onward tidy located found))

theorem entry?_of_stat {path : String} {place : Location} {entry : Entry} (opens : fs.stat path = .ok entry)
    (found : fs.resolve path = .ok place) : fs.tree.entry? place = some entry := by
  unfold FileSystem.stat at opens
  cases located : fs.locate maxLinks path with
  | error problem =>
    rw [located] at opens
    cases opens
  | ok location =>
    obtain rfl := FileSystem.locate_eq_resolve located found
    cases held : fs.tree.entry? location with
    | none => simp [located, held] at opens
    | some other =>
      simp only [located, held, Except.ok.injEq] at opens
      rw [opens]

theorem Resolves.alike {path path' : String}
    (one : ∀ place place', fs.resolve path = .ok place → fs.resolve path' = .ok place' → place' = place)
    (resolves : Resolves fs path) (resolves' : Resolves fs path') :
    Alike fs path path' ∧ ∀ entry, fs.stat path = .ok entry → fs.stat path' = .ok entry := by
  obtain ⟨-, real, led⟩ := resolves
  obtain ⟨⟨entry', opens'⟩, real', led'⟩ := resolves'
  obtain ⟨place, found, rfl⟩ := FileSystem.realPath?_eq_some.mp led
  obtain ⟨place', found', rfl⟩ := FileSystem.realPath?_eq_some.mp led'
  obtain rfl := one place place' found found'
  refine ⟨⟨_, led, led'⟩, fun entry opens => ?_⟩
  have same := (entry?_of_stat opens found).symm.trans (entry?_of_stat opens' found')
  rw [opens', Option.some.inj same]

end

theorem Alike.canonical {path path' : String} (alike : Alike fs path path') (tidy : Tidy path) (tidy' : Tidy path') :
    fs.canonical path' = fs.canonical path := by
  obtain ⟨real, led, led'⟩ := alike
  rw [FileSystem.canonical, FileSystem.canonical, abs_of_tidy fs tidy, abs_of_tidy fs tidy', led, led',
    Option.getD_some, Option.getD_some]

/-! ## The second walk -/

section
variable {directory : String} {item : FileSystem.Listed}

theorem exists_alike {path real : String} {visited : List String} {events : List WalkEvent}
    (walks : Walks fs pattern excludes (.enter (Glob.base pattern)) [] events visited)
    (led : fs.realPath? path = some real)
    (visits : real ∈ visited) : ∃ path', Occurs fs pattern excludes (.entered path') ∧ Alike fs path path' := by
  rcases walks.exists_entered visits with before | ⟨path', entered', led'⟩
  · cases before
  · exact ⟨path', walks.occurs_iff.mpr (mem_entered.mp entered'), real, led, led'⟩

theorem exists_alike_of_enter {path : String} (entered : Occurs fs pattern excludes (.entered directory))
    (listed : item ∈ (fs.list? directory).getD [])
    (move : moveAt fs pattern excludes directory item = .enter (Path.join [directory, item.name]))
    (alike : Alike fs path (Path.join [directory, item.name])) :
    ∃ path', Occurs fs pattern excludes (.entered path') ∧ Alike fs path path' := by
  obtain ⟨events, visited, walks, entered⟩ := entered
  obtain ⟨real, led, led'⟩ := alike
  have meets : Walks.Meets fs (.enter (Glob.base pattern)) events directory item :=
    .inr ⟨mem_entered.mpr entered, listed⟩
  exact exists_alike walks led ((walks.handles meets).visited _ real move led')

theorem occurs_found (entered : Occurs fs pattern excludes (.entered directory))
    (listed : item ∈ (fs.list? directory).getD [])
    (move : moveAt fs pattern excludes directory item = .note [.found directory item.name]) :
    Occurs fs pattern excludes (.found directory item.name) := by
  obtain ⟨events, visited, walks, entered⟩ := entered
  have meets : Walks.Meets fs (.enter (Glob.base pattern)) events directory item :=
    .inr ⟨mem_entered.mpr entered, listed⟩
  exact ⟨events, visited, walks, (walks.handles meets).noted _ move List.mem_cons_self⟩

theorem Occurs.tidy (entered : Occurs fs pattern excludes (.entered directory)) (tidy : Tidy (Glob.base pattern)) :
    Tidy directory := by
  obtain ⟨events, visited, walks, entered⟩ := entered
  exact walks.tidy tidy (mem_entered.mpr entered)

end

/-- The extension is that of the name, so that the patterns alone tell one path of an entry from another. -/
theorem isSelected_join_of_matched {directory directory' name : String} (tidy : Tidy directory)
    (tidy' : Tidy directory') (proper : Path.Proper name)
    (selected : isSelected pattern excludes (Path.join [directory, name]) = true)
    (excluded : isExcluded (Path.join [directory', name]) excludes = false)
    (matched : Glob.isMatch pattern (Path.join [directory', name]) = true) :
    isSelected pattern excludes (Path.join [directory', name]) = true := by
  have extension : Path.ext (Path.join [directory', name]) = Path.ext (Path.join [directory, name]) := by
    rw [tidy'.join_eq proper, tidy.join_eq proper, Path.ext_ofComponents _ proper.no_slash,
      Path.ext_ofComponents _ proper.no_slash]
  rw [isSelected, Bool.and_eq_true, Bool.and_eq_true] at selected
  rw [isSelected, hasSourceExtension, extension, ← hasSourceExtension, selected.1.1, excluded, matched]
  rfl

section
variable (formed : fs.tree.WellFormed)
include grows formed

/-- By another path of its directory an entry is met, and leads where it did, unless it is barred there. -/
theorem of_not_barred {directory directory' file : String} {item : FileSystem.Listed} (tidy : Tidy directory)
    (tidy' : Tidy directory')
    (listed : item ∈ (fs.list? directory).getD []) (alike : Alike other directory directory')
    (free : ¬ Barred other pattern excludes file directory directory' item.name) :
    item ∈ (other.list? directory').getD [] ∧
      Alike other (Path.join [directory, item.name]) (Path.join [directory', item.name]) ∧
      isExcluded (Path.join [directory', item.name]) excludes = false ∧
      ∀ leads, leadsToDirectory? fs (Path.join [directory, item.name]) item.entry = some leads →
        leadsToDirectory? other (Path.join [directory', item.name]) item.entry = some leads := by
  obtain ⟨location, located, -, held⟩ := Walks.exists_located listed
  have proper := (formed.usable held).toProper
  obtain ⟨items, read⟩ := Option.isSome_iff_exists.mp (isSome_list? (exists_list? grows listed))
  obtain ⟨items', read'⟩ := Option.ne_none_iff_exists'.mp fun unread => free (.unread unread)
  have resolve := not_not.mp fun nowhere => free (.nowhere nowhere)
  have excluded := Bool.eq_false_of_not_eq_true fun excluded => free (.excluded excluded)
  obtain ⟨rfl, location, -, located, located'⟩ := alike.exists_location read read'
  obtain ⟨alike, opens⟩ := resolve.1.alike
    (fun _ _ => eq_of_resolve_join tidy tidy' proper located located') resolve.2
  refine ⟨?_, alike, excluded, fun leads told => ?_⟩
  · have here := exists_list? grows listed
    rw [read] at here
    rw [read']
    exact here
  · exact leadsToDirectory?_of_stat opens (leadsToDirectory?_of_stat (fun _ => grows.stat) told)

variable (tidy : Tidy (Glob.base pattern))
include tidy

/-- A directory that is read in the first walk is entered in the second one, by some path, or the way to the
file goes by a displaced one. The way is followed from the base on. -/
theorem entered_or_displaced {bound : Nat} {path file : String} (rooted : Path.isAbs file = true)
    (bounded : (Path.components path).length < bound) (entered : Occurs fs pattern excludes (.entered path))
    (read : (fs.list? path).isSome = true) (on_way : path ∈ Path.ancestors file) :
    (∃ path', Occurs other pattern excludes (.entered path') ∧ Alike other path path') ∨
      IsDisplaced fs other pattern excludes file := by
  -- The induction is on the number of names: the directory above was read before, by a path with one name less.
  induction bound generalizing path with
  | zero => omega
  | succ bound ih =>
    obtain ⟨events, visited, walks, entered_here⟩ := id entered
    rw [← mem_entered] at entered_here
    obtain ⟨real, -, led⟩ := walks.mem_visited entered_here
    obtain ⟨items, listed⟩ := Option.isSome_iff_exists.mp read
    obtain ⟨location, located, -⟩ := FileSystem.list?_eq_some.mp listed
    have led' : other.realPath? path = some real := (grows.realPath? (FileSystem.follow_namesOf located)).trans led
    rcases walks.origin entered_here with start | ⟨directory, item, meets, move⟩
    · cases start
      obtain ⟨_, _, walks', -⟩ := exists_walks_from other pattern excludes (Glob.base pattern)
      exact .inl (exists_alike walks' led' (walks'.visits led'))
    · rcases meets with ⟨_, ⟨⟩, -⟩ | ⟨entered_above, listed_here⟩
      have entered_above : Occurs fs pattern excludes (.entered directory) :=
        ⟨events, visited, walks, mem_entered.mp entered_above⟩
      obtain ⟨_, -, -, held⟩ := Walks.exists_located listed_here
      have proper := (formed.usable held).toProper
      have tidy_above := entered_above.tidy tidy
      obtain rfl := enter_eq move
      have longer := congrArg List.length (tidy_above.components_join proper)
      rw [List.length_append, List.length_singleton] at longer
      have above :=
        ih (by omega) entered_above (isSome_list? listed_here) (mem_ancestors_of_join rooted tidy_above proper on_way)
      rcases above with ⟨directory', entered', alike⟩ | displaced
      · by_cases reached : ∃ path', Occurs other pattern excludes (.entered path') ∧
          Alike other (Path.join [directory, item.name]) path'
        · exact .inl reached
        · refine .inr ⟨directory, directory', item.name, on_way, entered_above,
            fun own => reached ?_, entered', alike, ?_,
            fun _ path occurs alike => reached ⟨path, occurs, alike⟩⟩
          · -- By its own path the second walk goes the same way as the first one.
            have move' : moveAt other pattern excludes directory item = .enter (Path.join [directory, item.name]) := by
              rw [moveAt_grows grows (by rw [move]; exact fun same => by cases same), move]
            exact exists_alike_of_enter own (exists_list? grows listed_here) move' ⟨real, led', led'⟩
          · by_contra free
            obtain ⟨leads, visible, -⟩ := moveAt_eq_enter.mp move
            obtain ⟨listed', alike', excluded, leads'⟩ :=
              of_not_barred grows formed tidy_above (entered'.tidy tidy) listed_here alike free
            exact reached
              (exists_alike_of_enter entered' listed'
                (moveAt_eq_enter.mpr ⟨leads' true leads, visible, excluded⟩) alike')
      · exact .inr displaced

/-- A file that the first walk finds is found by the second one, by some path of its directory, or the way to
it is displaced. -/
theorem found_or_displaced {directory name : String} (found : Occurs fs pattern excludes (.found directory name)) :
    (∃ directory', Occurs other pattern excludes (.found directory' name) ∧
      other.canonical (Path.join [directory', name]) = other.canonical (Path.join [directory, name])) ∨
      IsDisplaced fs other pattern excludes (Path.join [directory, name]) := by
  obtain ⟨events, visited, walks, found_here⟩ := found
  obtain ⟨_, item, seen, meets, move, here⟩ := walks.noted found_here rfl
  rcases note_cases move with rfl | rfl | rfl
  · cases here
  · cases List.mem_singleton.mp here
    rcases meets with ⟨_, ⟨⟩, -⟩ | ⟨entered, listed⟩
    have entered : Occurs fs pattern excludes (.entered directory) := ⟨events, visited, walks, mem_entered.mp entered⟩
    obtain ⟨_, -, -, held⟩ := Walks.exists_located listed
    have proper := (formed.usable held).toProper
    have tidy_directory := entered.tidy tidy
    have tidy_file := tidy_join tidy_directory.1 item.name
    have on_way := mem_ancestors_self tidy_file
    have above := entered_or_displaced grows formed tidy tidy_file.1 (Nat.lt_succ_self _) entered (isSome_list? listed)
      (mem_ancestors_of_join tidy_file.1 tidy_directory proper on_way)
    rcases above with ⟨directory', entered', alike⟩ | displaced
    · by_cases own : Occurs other pattern excludes (.entered directory)
      · have move' : moveAt other pattern excludes directory item = .note [.found directory item.name] := by
          rw [moveAt_grows grows (by rw [move]; exact fun same => by cases same), move]
        exact .inl ⟨directory, occurs_found own (exists_list? grows listed) move', rfl⟩
      · by_cases barred :
          Barred other pattern excludes (Path.join [directory, item.name]) directory directory' item.name
        · exact .inr ⟨directory, directory', item.name, on_way, entered, own, entered', alike, barred,
            fun differs => absurd rfl differs⟩
        · -- What does not bar the entry is all that the walk asks of it by the other path.
          obtain ⟨leads, selected⟩ := moveAt_eq_found.mp move
          have tidy_directory' := entered'.tidy tidy
          obtain ⟨listed', alike', excluded, leads'⟩ :=
            of_not_barred grows formed tidy_directory tidy_directory' listed alike barred
          have matched : Glob.isMatch pattern (Path.join [directory', item.name]) = true := by
            by_contra unmatched
            exact barred (.unmatched rfl (Bool.eq_false_of_not_eq_true unmatched))
          have selected' :=
            isSelected_join_of_matched tidy_directory tidy_directory' proper selected excluded matched
          exact .inl ⟨directory', occurs_found entered' listed' (moveAt_eq_found.mpr ⟨leads' false leads, selected'⟩),
            alike'.canonical tidy_file (tidy_join tidy_directory'.1 item.name)⟩
    · exact .inr displaced
  · cases List.mem_singleton.mp here

end
end

/-! ## Loading -/

/-- The specifiers in a configuration file, and in those that it extends, stand for the same files in both
file systems. -/
def Steady (fs other : FileSystem) (path : String) : Prop :=
  ∀ file, ReflTransGen (Extends fs) path file → ∀ raw specifiers, Reads fs file raw specifiers →
    ∀ specifier ∈ specifiers, resolveExtends? other specifier (Path.dir file) =
    resolveExtends? fs specifier (Path.dir file)

section
variable {fs other : FileSystem}

theorem foldlM_addBase_grows {dir : String} {load load' : String → Except ConfigError (Layer × List Diagnostic)}
    {specifiers : List String} {held below : Layer × List Diagnostic}
    (steady : ∀ specifier ∈ specifiers, resolveExtends? other specifier dir = resolveExtends? fs specifier dir)
    (each : ∀ specifier ∈ specifiers, ∀ base, resolveExtends? fs specifier dir = some base →
      ∀ result, load base = .ok result → load' base = .ok result)
    (folded : specifiers.foldlM (addBase fs dir load) held = .ok below) :
    specifiers.foldlM (addBase other dir load') held = .ok below := by
  induction specifiers generalizing held with
  | nil =>
    rw [List.foldlM_nil] at folded ⊢
    exact folded
  | cons specifier rest ih =>
    obtain ⟨steady_first, steady_rest⟩ := List.forall_mem_cons.mp steady
    obtain ⟨each_first, each_rest⟩ := List.forall_mem_cons.mp each
    rw [List.foldlM_cons] at folded ⊢
    cases resolved : resolveExtends? fs specifier dir with
    | none =>
      rw [addBase_missing resolved] at folded
      rw [addBase_missing (steady_first.trans resolved)]
      exact ih steady_rest each_rest folded
    | some base =>
      rw [addBase_found resolved] at folded
      rw [addBase_found (steady_first.trans resolved)]
      cases found : load base with
      | error e =>
        rw [found] at folded
        cases folded
      | ok result =>
        rw [found] at folded
        rw [each_first base resolved result found]
        exact ih steady_rest each_rest folded

theorem Reads.grows (grows : fs.Grows other) {path : String} {raw : RawConfig} {specifiers : List String}
    (reads : Reads fs path raw specifiers) : Reads other path raw specifiers := by
  obtain ⟨content, value, found, rest⟩ := readRaw_eq_ok.mp reads.1
  exact ⟨readRaw_eq_ok.mpr ⟨content, value, grows.read found, rest⟩, reads.2⟩

/-- What is loaded stays as it is where the specifiers stand for the same files. -/
theorem loadLayer_grows (grows : fs.Grows other) {fuel : Nat} {chain : List String} {path : String}
    {result : Layer × List Diagnostic}
    (steady : Steady fs other path) (loaded : loadLayer fs fuel chain path = .ok result) :
    loadLayer other fuel chain path = .ok result := by
  induction fuel generalizing chain path result with
  | zero => cases loaded
  | succ fuel ih =>
    have new : path ∉ chain := by
      intro again
      rw [loadLayer_of_mem again] at loaded
      cases loaded
    obtain ⟨raw, specifiers, below, reads, folded, rfl⟩ := of_loadLayer_eq_ok loaded
    -- What a configuration extends is extended by the first one too, so its specifiers are steady.
    have each : ∀ specifier ∈ specifiers, ∀ base, resolveExtends? fs specifier (Path.dir path) = some base →
        ∀ result, loadLayer fs fuel (chain ++ [path]) base = .ok result →
        loadLayer other fuel (chain ++ [path]) base = .ok result := by
      intro specifier mem base resolved result found
      exact ih (fun file reached =>
        steady file (.head ⟨raw, specifiers, reads, specifier, mem, resolved⟩ reached)) found
    have folded' := foldlM_addBase_grows (steady path .refl raw specifiers reads) each folded
    rw [loadLayer_of_reads new (reads.grows grows), folded']
    rfl

theorem Reads.steady {path : String} {raw : RawConfig} (reads : Reads fs path raw []) : Steady fs other path := by
  intro file reached raw' specifiers reads' specifier mem
  rcases reached.cases_head with rfl | ⟨base, ⟨raw'', specifiers', reads'', specifier', mem', -⟩, -⟩
  · cases (reads'.unique reads).2
    cases mem
  · cases (reads''.unique reads).2
    cases mem'

end

/-! ## Members -/

section
variable {fs : FileSystem} {layer : Layer} {file : String}

theorem mem_walkPattern_iff {pattern : String} {excludes : List String} : file ∈ walkPattern fs pattern excludes ↔
    ∃ directory name, Occurs fs (widen pattern) excludes (.found directory name) ∧
    Path.join [directory, name] = file := by
  obtain ⟨events, visited, walks, told⟩ := walkFinds_walkPattern fs excludes pattern
  simp only [told, walks.occurs_iff, List.mem_filterMap]
  constructor
  · rintro ⟨event, mem, is_file⟩
    cases event with
    | entered | missed => cases is_file
    | found directory name => exact ⟨directory, name, mem, Option.some.inj is_file⟩
  · rintro ⟨directory, name, mem, rfl⟩
    exact ⟨.found directory name, mem, rfl⟩

/-- A member is found by a pattern under a name in a directory. -/
structure FindsAs (fs : FileSystem) (layer : Layer) (configDir file pattern directory name : String) : Prop where
  included : pattern ∈ includePatterns layer configDir
  found : Occurs fs (widen pattern) (excludePatterns layer configDir) (.found directory name)
  canonical : fs.canonical (Path.join [directory, name]) = file

theorem mem_memberFiles {configPath : String} : file ∈ memberFiles fs layer configPath ↔
    (∃ listed ∈ listedFiles layer, fs.isFile listed = true ∧ fs.canonical listed = file) ∨
      ∃ pattern directory name, FindsAs fs layer (Path.dir configPath) file pattern directory name := by
  rw [memberFiles_eq, List.mem_eraseDups, List.map_append, List.mem_append]
  refine or_congr ?_ ?_
  · simp only [List.mem_map, List.mem_filter, and_assoc]
  · simp only [foundFiles, List.mem_map, List.mem_flatten, exists_exists_and_eq_and, mem_walkPattern_iff]
    constructor
    · rintro ⟨_, ⟨pattern, included, directory, name, found, rfl⟩, canonical⟩
      exact ⟨pattern, directory, name, included, found, canonical⟩
    · rintro ⟨pattern, directory, name, included, found, canonical⟩
      exact ⟨_, ⟨pattern, included, directory, name, found, rfl⟩, canonical⟩

theorem LeadsToFile.canonical_grows {other : FileSystem} (grows : fs.Grows other) {location : Location}
    (leads : LeadsToFile fs file location) : other.canonical file = fs.canonical file := by
  have followed : fs.tree.follow maxLinks [] (fs.namesOf (fs.abs file)) = .ok location := by
    rw [abs_of_tidy fs leads.tidy, FileSystem.namesOf_of_isAbs leads.tidy.1, leads.followed]
  exact grows.canonical followed

/-- A member is not listed, and each way by which it is found is displaced. -/
structure OnlyDisplaced (fs other : FileSystem) (layer : Layer) (configDir file : String) : Prop where
  unlisted : ∀ listed ∈ listedFiles layer, fs.isFile listed = true → fs.canonical listed ≠ file
  found : ∃ pattern directory name, FindsAs fs layer configDir file pattern directory name
  displaced : ∀ pattern directory name, FindsAs fs layer configDir file pattern directory name →
    IsDisplaced fs other (widen pattern) (excludePatterns layer configDir) (Path.join [directory, name])

theorem mem_memberFiles_grows {other : FileSystem} (grows : fs.Grows other) (formed : fs.tree.WellFormed) {fuel : Nat}
    {chain : List String} {path : String} {reported : List Diagnostic} (rooted : Path.isAbs path = true)
    (loaded : loadLayer fs fuel chain path = .ok (layer, reported)) (mem : file ∈ memberFiles fs layer path) :
    file ∈ memberFiles other layer path ∨ OnlyDisplaced fs other layer (Path.dir path) file := by
  by_cases kept : file ∈ memberFiles other layer path
  · exact .inl kept
  · have unlisted : ∀ listed ∈ listedFiles layer, fs.isFile listed = true → fs.canonical listed ≠ file := by
      intro listed mem there same
      obtain ⟨location, leads⟩ := exists_leadsToFile (tidy_listedFiles rooted loaded listed mem) there
      exact kept (mem_memberFiles.mpr
        (.inl ⟨listed, mem, grows.isFile there, (leads.canonical_grows grows).trans same⟩))
    have displaced : ∀ pattern directory name, FindsAs fs layer (Path.dir path) file pattern directory name →
        IsDisplaced fs other (widen pattern) (excludePatterns layer (Path.dir path)) (Path.join [directory, name]) := by
      intro pattern directory name finds
      have tidy := tidy_base (tidy_includePatterns rooted loaded pattern finds.included)
      refine (found_or_displaced grows formed tidy finds.found).resolve_left fun ⟨directory', found, canonical⟩ => ?_
      obtain ⟨events, visited, walks, happened⟩ := finds.found
      obtain ⟨location, leads⟩ := walks.leadsToFile formed tidy happened
      have same : other.canonical (Path.join [directory', name]) = file :=
        canonical.trans ((leads.canonical_grows grows).trans finds.canonical)
      exact kept (mem_memberFiles.mpr (.inr ⟨pattern, directory', name, finds.included, found, same⟩))
    rcases mem_memberFiles.mp mem with ⟨listed, mem, there, same⟩ | found
    · exact absurd same (unlisted listed mem there)
    · exact .inr ⟨unlisted, found, displaced⟩

end

/-- With a link more, a configuration whose specifiers stand for the same files is read with the same
settings. It keeps every member, but for those that are not listed and that were found only by ways on which a
directory is now entered by another path and the next entry is barred there. -/
theorem parse_addLink_keeps_members {fs : FileSystem} (formed : fs.tree.WellFormed) {place : Location}
    (free : fs.tree.entry? place = none) (target : String) {path : String} {config : Config}
    (parsed : (parse fs path).value = .ok config) (steady : Steady fs (fs.addLink place target) config.path) :
    ∃ layer reported config', loadLayer fs FileSystem.pathBound [] config.path = .ok (layer, reported) ∧
      (parse (fs.addLink place target) path).value = .ok config' ∧
      config'.path = config.path ∧ config'.options = config.options ∧ config'.references = config.references ∧
      ∀ file ∈ config.fileNames, file ∈ config'.fileNames ∨
        OnlyDisplaced fs (fs.addLink place target) layer config.dir file := by
  have grows := FileSystem.grows_addLink free target
  obtain ⟨layer, reported, loaded, whole, -⟩ := exists_layer parsed
  have rooted : Path.isAbs config.path = true := whole ▸ fs.isAbs_abs path
  rw [whole] at loaded steady
  have loaded' := loadLayer_grows grows steady loaded
  rw [← grows.abs] at loaded'
  rw [parse_of_loaded loaded] at parsed
  cases parsed
  refine ⟨layer, reported, _, loaded, parse_of_loaded loaded', grows.abs path, rfl, rfl, fun file mem => ?_⟩
  dsimp only
  rw [grows.abs]
  exact mem_memberFiles_grows grows formed rooted loaded mem

def membersHere (fs : FileSystem) : Option (List String) := (parse fs configFileName).value.toOption.map (·.fileNames)

/-- A link at a free name, to a directory, takes away the only member. -/
structure TakesAway (fs : FileSystem) (place : Location) (target file : String) : Prop where
  formed : fs.tree.WellFormed
  formed_after : (fs.addLink place target).tree.WellFormed
  free : fs.tree.entry? place = none
  leads : (fs.addLink place target).stat (FileTree.pathOf place) = .ok .directory
  before : membersHere fs = some [file]
  after : membersHere (fs.addLink place target) = some []

/-- A configuration that takes in what is in a directory of one name. -/
def namedDirectory : FileSystem where
  tree := ⟨[(["o"], .directory), (["b", "o"], .directory), (["x.ts", "b", "o"], .file []),
    (["tsconfig.json", "o"], .file (Text.Utf8.encode "\x7b\"include\": [\"**/b/*.ts\"]\x7d"))]⟩
  cwd := "/o"
  rooted := by decide

theorem takesAway_namedDirectory : TakesAway namedDirectory ["a", "o"] "b" "/o/b/x.ts" := by
  refine ⟨by decide, by decide, by decide, ?_, ?_, ?_⟩ <;> decide +kernel

theorem displaced_namedDirectory : namedDirectory.tree.WellFormed ∧ namedDirectory.tree.entry? ["a", "o"] = none ∧
    ∃ config layer, (parse namedDirectory configFileName).value = .ok config ∧ config.fileNames = ["/o/b/x.ts"] ∧
      Steady namedDirectory (namedDirectory.addLink ["a", "o"] "b") config.path ∧
      OnlyDisplaced namedDirectory (namedDirectory.addLink ["a", "o"] "b") layer config.dir "/o/b/x.ts" := by
  obtain ⟨formed, -, free, -, before, after⟩ := takesAway_namedDirectory
  have reached : FileTree.Reached namedDirectory.tree ["tsconfig.json", "o"] :=
    .file (.down .root (by decide) (by decide)) (by decide) rfl
  obtain ⟨raw, reads, -⟩ : ∃ raw, Reads namedDirectory (FileTree.pathOf ["tsconfig.json", "o"]) raw [] ∧
      raw.files = none ∧ raw.included = some ["**/b/*.ts"] :=
    exists_reads namedDirectory reached rfl (by decide +kernel) (by decide +kernel)
  cases parsed : (parse namedDirectory configFileName).value with
  | error e =>
    rw [membersHere, parsed] at before
    cases before
  | ok config =>
    rw [membersHere, parsed] at before
    have members : config.fileNames = ["/o/b/x.ts"] := Option.some.inj before
    have steady : Steady namedDirectory (namedDirectory.addLink ["a", "o"] "b") config.path := by
      obtain ⟨-, -, -, whole, -⟩ := exists_layer parsed
      have path : namedDirectory.abs configFileName = FileTree.pathOf ["tsconfig.json", "o"] := by decide +kernel
      rw [whole, path]
      exact reads.steady
    obtain ⟨layer, -, config', -, parsed', -, -, -, kept⟩ := parse_addLink_keeps_members formed free "b" parsed steady
    rw [membersHere, parsed'] at after
    have none_after : config'.fileNames = [] := Option.some.inj after
    refine ⟨formed, free, config, layer, rfl, members, steady, (kept _ (members ▸ List.mem_cons_self)).resolve_left ?_⟩
    rw [none_after]
    exact List.not_mem_nil

/-- A configuration that extends a file by a path that leads nowhere. -/
def pendingBase : FileSystem where
  tree := ⟨[(["i"], .directory), (["b.ts", "i"], .file []), (["t", "i"], .directory),
    (["y.json", "t", "i"], .file (Text.Utf8.encode "\x7b\"include\": [\"z\"]\x7d")),
    (["tsconfig.json", "i"], .file (Text.Utf8.encode "\x7b\"extends\": \"./a/y.json\"\x7d"))]⟩
  cwd := "/i"
  rooted := by decide

/-- A link takes away a member in two ways: a directory is entered by the link's name, which the pattern does
not ask for; or a specifier comes to stand for a file, which has other patterns. -/
theorem addLink_takes_members_away : TakesAway namedDirectory ["a", "o"] "b" "/o/b/x.ts" ∧
    TakesAway pendingBase ["a", "i"] "t" "/i/b.ts" := by
  refine ⟨takesAway_namedDirectory, by decide, by decide, by decide, ?_, ?_, ?_⟩ <;> decide +kernel

end Project
end ScriptLoader
