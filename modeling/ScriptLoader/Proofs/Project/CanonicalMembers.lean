import ScriptLoader.Proofs.Options.AccountedMembers
import ScriptLoader.Proofs.Project.Circularity
import ScriptLoader.Proofs.Project.Inheritance
import ScriptLoader.Proofs.Project.LinkedWalks
import Mathlib.Data.List.Forall2

/-!
The members of a configuration. Each is a file, held once by its canonical path: the listed files come first,
then the files that the patterns find, pattern by pattern and in the order of the walks. What is missing is
reported, and so is it when nothing is left.
-/

set_option autoImplicit false
namespace ScriptLoader.Project
open FileTree (pathOf)
open FileSystem (maxLinks Refused)

/-! ## Paths that lead to files -/

/-- A tidy path whose names lead to a file. -/
structure LeadsToFile (fs : FileSystem) (path : String) (location : Location) : Prop where
  tidy : Tidy path
  followed : fs.tree.follow maxLinks [] (Text.pieces path '/') = .ok location
  is_file : ∃ content, fs.tree.entry? location = some (.file content)

/-- No link stands on a path, as its names spell it, nor at its end. -/
def LinkFree (fs : FileSystem) (path : String) : Prop :=
  ∀ location, location <:+ (Path.components path).reverse → ∀ target, fs.tree.entry? location ≠ some (.link target)

section
variable {fs : FileSystem} {path : String} {location : Location}

theorem abs_of_tidy (fs : FileSystem) (tidy : Tidy path) : fs.abs path = path := by
  rw [FileSystem.abs, Path.abs, if_pos tidy.1, tidy.2]

theorem LeadsToFile.reached (leads : LeadsToFile fs path location) : FileTree.Reached fs.tree location :=
  FileTree.reached_of_follow .root (fun _ mem => Text.not_mem_of_mem_pieces mem) leads.followed

theorem canonical_of_refused (tidy : Tidy path) (refused : Refused (fs.resolve path)) : fs.canonical path = path := by
  have nowhere : fs.realPath? path = none := by
    unfold FileSystem.realPath?
    rcases refused with failed | failed <;> rw [failed]
  rw [FileSystem.canonical, abs_of_tidy fs tidy, nowhere]
  rfl

/-- The canonical form of a path leads to the same file. It is the path of the file unless the system refuses
that path. -/
theorem LeadsToFile.canonical (leads : LeadsToFile fs path location) :
    LeadsToFile fs (fs.canonical path) location ∧
      (fs.canonical path = pathOf location ∨ Refused (fs.resolve (fs.canonical path))) := by
  have names : fs.namesOf path = Text.pieces path '/' := FileSystem.namesOf_of_isAbs leads.tidy.1
  have resolved : fs.resolve path = .ok location ∨ Refused (fs.resolve path) := by
    rw [FileSystem.resolve, names]
    exact FileSystem.resolveFrom_of_follow (by decide) leads.followed []
  rcases resolved with found | refused
  · have real : fs.canonical path = pathOf location := by
      rw [FileSystem.canonical, abs_of_tidy fs leads.tidy, FileSystem.realPath?_of_resolve found]
      rfl
    have proper : Path.AllProper location := fun name mem => (leads.reached.usable name mem).toProper
    rw [real]
    exact ⟨⟨tidy_pathOf proper, leads.reached.follow maxLinks, leads.is_file⟩, .inl rfl⟩
  · rw [canonical_of_refused leads.tidy refused]
    exact ⟨leads, .inr refused⟩

theorem LeadsToFile.isFile (leads : LeadsToFile fs path location) (openable : FileSystem.Openable path) :
    fs.isFile path = true := by
  have located : fs.locate maxLinks path = .ok location := by
    rw [FileSystem.locate_of_openable leads.tidy.1 openable, leads.followed]
  obtain ⟨content, held⟩ := leads.is_file
  simp only [FileSystem.isFile, FileSystem.stat, located, held]

theorem linkFree_pathOf (formed : fs.tree.WellFormed) {content : List UInt8}
    (is_file : fs.tree.entry? location = some (.file content)) :
    LinkFree fs (pathOf location) := by
  intro above part target link
  have proper : Path.AllProper location.reverse := fun name mem => formed.proper is_file name (List.mem_reverse.mp mem)
  rw [pathOf, Path.components_ofComponents proper, List.reverse_reverse] at part
  by_cases same : above = location
  · rw [same, is_file] at link
    cases link
  · rw [formed.directory_of_suffix is_file part same] at link
    cases link

theorem exists_leadsToFile (tidy : Tidy path) (file : fs.isFile path = true) :
    ∃ location, LeadsToFile fs path location := by
  unfold FileSystem.isFile FileSystem.stat at file
  cases located : fs.locate maxLinks path with
  | error problem => simp [located] at file
  | ok location =>
    have reached := FileSystem.reached_of_locate tidy.1 located
    refine ⟨location, tidy, FileSystem.follow_of_locate tidy.1 located, ?_⟩
    cases reached with
    | directory walkable => simp [located, walkable.entry?] at file
    | file _ _ held => exact ⟨_, held⟩

/-! ## What walks find -/

theorem follow_join (tidy : Tidy path) {name : String} (proper : Path.Proper name) (links : Nat) :
    fs.tree.follow links [] (Text.pieces (Path.join [path, name]) '/') =
      fs.tree.follow links [] (Text.pieces path '/' ++ [name]) := by
  rw [tidy.join_eq proper, Path.pieces_ofComponents (tidy.allProper_append proper) (by simp)]
  by_cases root : Path.components path = []
  · -- The root is written with a separator that comes before no name.
    obtain ⟨jump, same⟩ := fs.tree.follow_eq_followNames links
    have pieces_root : Text.pieces path '/' = ["", ""] := by
      rw [tidy.eq_ofComponents, root]
      decide
    rw [root, pieces_root, same, same]
    rfl
  · have pieces : Text.pieces path '/' = "" :: Path.components path := by
      rw [← Path.pieces_ofComponents (Path.proper_of_mem_components tidy.1) root, ← tidy.eq_ofComponents]
    rw [pieces]
    rfl

theorem moveAt_eq_found {pattern directory : String} {excludes : List String} {item : FileSystem.Listed} :
    moveAt fs pattern excludes directory item = .note [.found directory item.name] ↔
      leadsToDirectory? fs (Path.join [directory, item.name]) item.entry = some false ∧
        isSelected pattern excludes (Path.join [directory, item.name]) = true := by
  cases leads : leadsToDirectory? fs (Path.join [directory, item.name]) item.entry with
  | none => simp [moveAt, leads]
  | some leads_there =>
    cases leads_there with
    | false => simp [moveAt, leads]
    | true =>
      simp only [moveAt, leads]
      split <;> simp

theorem isFile_of_link {target : String} (leads : leadsToDirectory? fs path (.link target) = some false) :
    fs.isFile path = true := by
  unfold leadsToDirectory? at leads
  unfold FileSystem.isFile
  revert leads
  cases fs.stat path with
  | error problem =>
    intro leads
    cases leads
  | ok entry =>
    cases entry with
    | directory =>
      intro leads
      cases leads
    | file | link => exact fun _ => rfl

/-- A file that a walk finds is one that the path of its directory and its name lead to. -/
theorem Walks.leadsToFile {pattern base directory name : String} {excludes visited : List String}
    {events : List WalkEvent}
    (formed : fs.tree.WellFormed) (walks : Walks fs pattern excludes (.enter base) [] events visited) (tidy : Tidy base)
    (found : .found directory name ∈ events) : ∃ location, LeadsToFile fs (Path.join [directory, name]) location := by
  obtain ⟨_, item, seen, meets, move, here⟩ := walks.noted found rfl
  rcases note_cases move with rfl | rfl | rfl
  · cases here
  · cases List.mem_singleton.mp here
    rcases meets with ⟨_, ⟨⟩, -⟩ | ⟨entered, listed⟩
    have tidy_directory := walks.tidy tidy entered
    have tidy_child := tidy_join tidy_directory.1 item.name
    obtain ⟨location, located, is_directory, held⟩ := Walks.exists_located listed
    have usable := formed.usable held
    obtain ⟨leads, -⟩ := moveAt_eq_found.mp move
    cases entry : item.entry with
    | directory =>
      rw [entry] at leads
      cases leads
    | file content =>
      rw [entry] at held
      have followed :=
        FileTree.follow_on_to_file is_directory usable.plain held (FileSystem.follow_of_locate tidy_directory.1 located)
      rw [← follow_join tidy_directory usable.toProper] at followed
      exact ⟨_, tidy_child, followed, content, held⟩
    | link target =>
      rw [entry] at leads
      exact exists_leadsToFile tidy_child (isFile_of_link leads)
  · cases List.mem_singleton.mp here

end
/-! ## Where the files and patterns come from -/

section
variable {fs : FileSystem}

/-- All files that are come to by what an absolute path extends have absolute paths. -/
theorem isAbs_of_visited {fuel : Nat} {path file : String} (rooted : Path.isAbs path = true)
    (visited : file ∈ filesOf (visitsWithin fs fuel path)) : Path.isAbs file = true := by
  induction fuel generalizing path with
  | zero => cases visited
  | succ fuel ih =>
    obtain ⟨visit, mem, is_config⟩ := List.mem_filterMap.mp visited
    rw [visitsWithin] at mem
    split at mem
    · cases mem
    · split at mem
      · cases mem
      · rcases List.mem_append.mp mem with extended | own
        · obtain ⟨specifier, -, mem⟩ := List.mem_flatMap.mp extended
          split at mem
          · rw [List.mem_singleton.mp mem] at is_config
            cases is_config
          · rename_i base resolved
            have rooted_base := isAbs_of_resolveExtends? (Path.isAbs_dir rooted) resolved
            exact ih rooted_base (List.mem_filterMap.mpr ⟨visit, mem, is_config⟩)
        · rw [List.mem_singleton.mp own] at is_config
          cases is_config
          exact rooted

theorem isAbs_declaredSet {field : RawConfig → Option (List String)} {fuel : Nat} {path : String} {set : PatternSet}
    (rooted : Path.isAbs path = true)
    (last : lastOf (filesOf (visitsWithin fs fuel path)) (declaredSet fs field) = some set) :
    Path.isAbs set.dir = true := by
  obtain ⟨file, mem, found⟩ := List.exists_of_findSome?_eq_some last
  obtain ⟨patterns, -, rfl⟩ := Option.map_eq_some_iff.mp found
  dsimp only
  exact Path.isAbs_dir (isAbs_of_visited rooted (List.mem_reverse.mp mem))

theorem tidy_absPattern {dir : String} (rooted : Path.isAbs dir = true) (pattern : String) :
    Tidy (absPattern dir pattern) := by
  refine ⟨Path.isAbs_clean ?_, Path.clean_clean _⟩
  split
  · assumption
  · exact Path.isAbs_join rooted pattern

def includePatterns (layer : Layer) (configDir : String) : List String :=
  match includeSet layer configDir with
  | none => []
  | some set => set.patterns.map (absPattern set.dir)

variable {path : String} {layer : Layer} {reported : List Diagnostic}

theorem tidy_listedFiles {fuel : Nat} {chain : List String} (rooted : Path.isAbs path = true)
    (loaded : loadLayer fs fuel chain path = .ok (layer, reported)) : ∀ file ∈ listedFiles layer, Tidy file := by
  intro file mem
  unfold listedFiles at mem
  split at mem
  · cases mem
  · rename_i set files
    obtain ⟨pattern, -, rfl⟩ := List.mem_map.mp mem
    refine tidy_absPattern ?_ pattern
    rw [(accounts_of_loaded loaded).files] at files
    exact isAbs_declaredSet rooted files

theorem tidy_includePatterns {fuel : Nat} {chain : List String} (rooted : Path.isAbs path = true)
    (loaded : loadLayer fs fuel chain path = .ok (layer, reported)) :
    ∀ pattern ∈ includePatterns layer (Path.dir path), Tidy pattern := by
  intro pattern mem
  unfold includePatterns at mem
  split at mem
  · cases mem
  · rename_i set included
    obtain ⟨pattern, -, rfl⟩ := List.mem_map.mp mem
    refine tidy_absPattern ?_ pattern
    unfold includeSet at included
    split at included
    · rename_i own set_there
      cases included
      rw [(accounts_of_loaded loaded).included] at set_there
      exact isAbs_declaredSet rooted set_there
    · split at included
      · cases included
        dsimp only
        exact Path.isAbs_dir rooted
      · cases included

/-! ## The order of the members -/

def WalkEvent.file? : WalkEvent → Option String
  | .found directory name => some (Path.join [directory, name])
  | .entered _ | .missed .. => none

/-- The files that a walk for a pattern finds from its base on, in order. -/
def WalkFinds (fs : FileSystem) (excludes : List String) (pattern : String) (files : List String) : Prop :=
  ∃ events visited, Walks fs (widen pattern) excludes (.enter (Glob.base (widen pattern))) [] events visited ∧
    files = events.filterMap WalkEvent.file?

theorem walkFinds_walkPattern (fs : FileSystem) (excludes : List String) (pattern : String) :
    WalkFinds fs excludes pattern (walkPattern fs pattern excludes) := by
  obtain ⟨events, visited, walks, told⟩ := exists_walks_sightings fs pattern excludes
  refine ⟨events, visited, walks, ?_⟩
  have same : ∀ event : WalkEvent, event.sighting?.bind Sighting.file? = event.file? := by
    intro event
    cases event <;> rfl
  rw [walkPattern, told, List.filterMap_filterMap]
  simp only [same]

theorem WalkFinds.leadsToFile (formed : fs.tree.WellFormed) {excludes files : List String}
    {pattern file : String} (tidy : Tidy pattern)
    (finds : WalkFinds fs excludes pattern files) (mem : file ∈ files) : ∃ location, LeadsToFile fs file location := by
  obtain ⟨events, visited, walks, rfl⟩ := finds
  obtain ⟨event, happened, is_file⟩ := List.mem_filterMap.mp mem
  cases event with
  | entered | missed => cases is_file
  | found directory name =>
    cases is_file
    exact walks.leadsToFile formed (tidy_base tidy) happened

def foundFiles (fs : FileSystem) (layer : Layer) (configDir : String) : List (List String) :=
  (includePatterns layer configDir).map fun pattern => walkPattern fs pattern (excludePatterns layer configDir)

theorem walkFinds_foundFiles (fs : FileSystem) (layer : Layer) (configDir : String) :
    List.Forall₂ (WalkFinds fs (excludePatterns layer configDir)) (includePatterns layer configDir)
      (foundFiles fs layer configDir) :=
  List.forall₂_map_right_iff.mpr (List.forall₂_same.mpr fun pattern _ => walkFinds_walkPattern fs _ pattern)

theorem filterMap_memberSightings (fs : FileSystem) (layer : Layer) (configPath : String) :
    (memberSightings fs layer configPath).filterMap Sighting.file? =
    (foundFiles fs layer (Path.dir configPath)).flatten := by
  unfold memberSightings foundFiles includePatterns
  dsimp only
  cases includeSet layer (Path.dir configPath) with
  | none => rfl
  | some set => simp only [List.flatMap_def, List.filterMap_flatten, List.map_map, walkPattern, Function.comp_def]

/-- Paths that are added one by one, each only when it is new, are the different ones in the order of their
first places. -/
theorem foldl_addNew_eq (f : String → String) (paths : List String) :
    paths.foldl (fun held path => addNew held (f path)) [] = (paths.map f).eraseDups := by
  induction paths using List.reverseRecOn with
  | nil => rfl
  | append_singleton paths path ih =>
    rw [List.foldl_append, ih, List.foldl_cons, List.foldl_nil, List.map_append, List.eraseDups_append, addNew]
    by_cases held : f path ∈ paths.map f
    · have nothing : [f path].removeAll (paths.map f) = [] := by
        rw [List.removeAll, List.filter_cons_of_neg (by simpa using held), List.filter_nil]
      rw [if_pos (by simpa using held), List.map_cons, List.map_nil, nothing]
      simp
    · have new : [f path].removeAll (paths.map f) = [f path] := by
        rw [List.removeAll, List.filter_cons_of_pos (by simpa using held), List.filter_nil]
      rw [if_neg (by simpa using held), List.map_cons, List.map_nil, new, List.eraseDups_cons]
      simp

theorem nodup_foldl_addNew (f : String → String) (paths : List String) :
    (paths.foldl (fun held path => addNew held (f path)) []).Nodup := by
  induction paths using List.reverseRecOn with
  | nil => exact .nil
  | append_singleton paths path ih =>
    rw [List.foldl_append, List.foldl_cons, List.foldl_nil, addNew]
    split
    · exact ih
    · rename_i new
      exact List.nodup_append.mpr ⟨ih, List.nodup_singleton _, fun held mem other single same =>
        new (List.contains_iff_mem.mpr (List.mem_singleton.mp single ▸ same ▸ mem))⟩

theorem memberFiles_eq (fs : FileSystem) (layer : Layer) (configPath : String) : memberFiles fs layer configPath =
    (((listedFiles layer).filter fs.isFile ++
    (foundFiles fs layer (Path.dir configPath)).flatten).map fs.canonical).eraseDups := by
  rw [memberFiles, foldl_addNew_eq, filterMap_memberSightings]

theorem exists_leadsToFile_of_mem {fuel : Nat} {chain : List String} {file : String} (formed : fs.tree.WellFormed)
    (rooted : Path.isAbs path = true) (loaded : loadLayer fs fuel chain path = .ok (layer, reported))
    (mem : file ∈ (listedFiles layer).filter fs.isFile ++ (foundFiles fs layer (Path.dir path)).flatten) :
    ∃ location, LeadsToFile fs file location := by
  rcases List.mem_append.mp mem with listed | found
  · obtain ⟨listed, there⟩ := List.mem_filter.mp listed
    exact exists_leadsToFile (tidy_listedFiles rooted loaded file listed) there
  · obtain ⟨files, mem, found⟩ := List.mem_flatten.mp found
    obtain ⟨pattern, included, rfl⟩ := List.mem_map.mp mem
    exact (walkFinds_walkPattern fs _ pattern).leadsToFile formed
      (tidy_includePatterns rooted loaded pattern included) found

/-- Every member is its own canonical form and leads to a file. -/
theorem canonical_of_mem_memberFiles {fuel : Nat} {chain : List String} {file : String} (formed : fs.tree.WellFormed)
    (rooted : Path.isAbs path = true) (loaded : loadLayer fs fuel chain path = .ok (layer, reported))
    (mem : file ∈ memberFiles fs layer path) :
    fs.canonical file = file ∧ ∃ location, LeadsToFile fs file location ∧
      (file = pathOf location ∧ LinkFree fs file ∨ Refused (fs.resolve file)) := by
  rw [memberFiles_eq, List.mem_eraseDups] at mem
  obtain ⟨reached, listed, rfl⟩ := List.mem_map.mp mem
  obtain ⟨location, leads⟩ := exists_leadsToFile_of_mem formed rooted loaded listed
  obtain ⟨leads_canonical, real | refused⟩ := leads.canonical
  · obtain ⟨content, is_file⟩ := leads.is_file
    exact ⟨fs.canonical_canonical reached, location, leads_canonical,
      .inl ⟨real, real ▸ linkFree_pathOf formed is_file⟩⟩
  · exact ⟨fs.canonical_canonical reached, location, leads_canonical, .inr refused⟩

/-! ## Problems -/

def Visit.specifier? : Visit → Option String
  | .config _ => none
  | .missing specifier => some specifier

theorem code_settleFile (path : String) (d : Diagnostic) : (settleFile path d).code = d.code := by
  unfold settleFile
  split <;> rfl

theorem code_fileNotFound (name : String) : (fileNotFound name).code ≠ .noInputs :=
  (by decide : Code.fileNotFound ≠ Code.noInputs)

theorem code_of_mem_reported {base : String} {raw : Fields Json} {d : Diagnostic}
    (mem : d ∈ (CompilerOptions.ofFields base raw).2) :
    d.code = .invalidOptionValue := by
  rw [CompilerOptions.reported_ofFields] at mem
  obtain ⟨name, -, rfl⟩ := List.mem_map.mp mem
  exact (CompilerOptions.complains_refusal name).code

/-- Of what is reported of the files on the way, the files that were not found are the specifiers that stand
for nothing. -/
theorem filter_reports (fs : FileSystem) (visits : List Visit) :
    (visits.flatMap (Visit.reports fs)).filter (·.code = .fileNotFound) =
    (visits.filterMap Visit.specifier?).map fileNotFound := by
  induction visits with
  | nil => rfl
  | cons visit rest ih =>
    rw [List.flatMap_cons, List.filter_append, ih]
    cases visit with
    | missing specifier => rfl
    | config file =>
      have none_here : ((Visit.config file).reports fs).filter (·.code = .fileNotFound) = [] := by
        rw [List.filter_eq_nil_iff]
        intro d mem
        rw [code_of_mem_reported mem]
        decide
      rw [none_here]
      rfl

theorem code_ne_noInputs {visits : List Visit} {d : Diagnostic} (mem : d ∈ visits.flatMap (Visit.reports fs)) :
    d.code ≠ .noInputs := by
  obtain ⟨visit, -, mem⟩ := List.mem_flatMap.mp mem
  cases visit with
  | missing specifier =>
    rw [List.mem_singleton.mp mem]
    exact code_fileNotFound specifier
  | config file =>
    rw [code_of_mem_reported mem]
    decide

theorem filter_memberProblems (fs : FileSystem) (layer : Layer) (configPath : String) :
    (memberProblems fs layer configPath).filter (·.code = .fileNotFound) =
      ((listedFiles layer).filter (!fs.isFile ·)).map fileNotFound := by
  have all_missing : (((listedFiles layer).filter (!fs.isFile ·)).map fileNotFound).filter (·.code = .fileNotFound) =
      ((listedFiles layer).filter (!fs.isFile ·)).map fileNotFound := by
    rw [List.filter_eq_self]
    intro d mem
    obtain ⟨name, -, rfl⟩ := List.mem_map.mp mem
    rfl
  rw [memberProblems, List.filter_append, all_missing]
  split <;> simp [noInputs, Diagnostic.ofError, Code.noInputs, Code.fileNotFound]

theorem exists_noInputs_iff :
    (∃ problem ∈ memberProblems fs layer path, problem.code = .noInputs) ↔ memberFiles fs layer path = [] := by
  constructor
  · rintro ⟨problem, mem, is_noInputs⟩
    rcases List.mem_append.mp mem with missing | mem
    · obtain ⟨name, -, rfl⟩ := List.mem_map.mp missing
      exact absurd is_noInputs (code_fileNotFound name)
    · split at mem
      · assumption
      · cases mem
  · intro empty
    refine ⟨noInputs layer path, List.mem_append_right _ ?_, rfl⟩
    rw [if_pos empty]
    exact List.mem_singleton_self _

/-- The problems of a configuration: what is reported on the way through the files, and what is wrong with the
members. -/
def problemsOf (fs : FileSystem) (layer : Layer) (path : String) : List Diagnostic :=
  ((visits fs path).flatMap (Visit.reports fs) ++ memberProblems fs layer path).map (settleFile path)

theorem filter_problemsOf (fs : FileSystem) (layer : Layer) (path : String) :
    (problemsOf fs layer path).filter (·.code = .fileNotFound) =
      ((visits fs path).filterMap Visit.specifier? ++ (listedFiles layer).filter (!fs.isFile ·)).map
        fun name => (fileNotFound name).inFile path := by
  have settled : ∀ d : Diagnostic, decide ((settleFile path d).code = .fileNotFound) =
      decide (d.code = .fileNotFound) :=
    fun d => by rw [code_settleFile]
  have in_file : ∀ name, settleFile path (fileNotFound name) = (fileNotFound name).inFile path := fun _ => if_pos rfl
  rw [problemsOf, List.filter_map, Function.comp_def]
  simp only [settled]
  rw [List.filter_append, filter_reports, filter_memberProblems, ← List.map_append, List.map_map]
  simp only [Function.comp_def, in_file]

theorem exists_noInputs_problemsOf_iff :
    (∃ problem ∈ problemsOf fs layer path, problem.code = .noInputs) ↔ memberFiles fs layer path = [] := by
  rw [← exists_noInputs_iff]
  constructor
  · rintro ⟨_, mem, is_noInputs⟩
    obtain ⟨d, reported, rfl⟩ := List.mem_map.mp mem
    rw [code_settleFile] at is_noInputs
    rcases List.mem_append.mp reported with mem | mem
    · exact absurd is_noInputs (code_ne_noInputs mem)
    · exact ⟨d, mem, is_noInputs⟩
  · rintro ⟨d, mem, is_noInputs⟩
    exact ⟨settleFile path d, List.mem_map_of_mem (List.mem_append_right _ mem), by rw [code_settleFile, is_noInputs]⟩

end

/-- A configuration that is read has the members and problems of its layer. -/
theorem exists_layer {fs : FileSystem} {path : String} {config : Config} (parsed : (parse fs path).value = .ok config) :
    ∃ layer reported, loadLayer fs FileSystem.pathBound [] config.path = .ok (layer, reported) ∧
      config.path = fs.abs path ∧ config.fileNames = memberFiles fs layer config.path ∧
      config.errors = problemsOf fs layer config.path := by
  cases loaded : loadLayer fs FileSystem.pathBound [] (fs.abs path) with
  | error e =>
    rw [parse_eq_error.mpr loaded] at parsed
    cases parsed
  | ok result =>
    obtain ⟨layer, reported⟩ := result
    have accounts : Accounts fs (visits fs (fs.abs path)) (layer, reported) := accounts_of_loaded loaded
    have told : reported = (visits fs (fs.abs path)).flatMap (Visit.reports fs) := accounts.reported
    rw [parse_of_loaded loaded, told] at parsed
    cases parsed
    exact ⟨layer, reported, loaded, rfl, rfl, rfl⟩

/-! ## Configurations that only list files -/

section
variable {fs : FileSystem} {path : String} {raw : RawConfig}

/-- A configuration that extends nothing says what its own file says. -/
theorem loadLayer_alone (reads : Reads fs path raw []) :
    loadLayer fs FileSystem.pathBound [] path = .ok (finish (Path.dir path) raw ({}, [])) := by
  have positive : 1 ≤ FileSystem.pathBound := FileSystem.length_le_pathBound (List.nodup_singleton "") (by decide)
  obtain ⟨fuel, bound⟩ : ∃ k, FileSystem.pathBound = k + 1 := ⟨_, (Nat.sub_add_cancel positive).symm⟩
  rw [bound, loadLayer_of_reads List.not_mem_nil reads]
  rfl

/-- A configuration that extends nothing and only lists files. -/
theorem exists_parse_listed {files : List String} (reads : Reads fs (fs.abs path) raw [])
    (listed : raw.files = some files)
    (none_included : raw.included = none) : ∃ config, (parse fs path).value = .ok config ∧ config.fileNames =
      (((files.map (absPattern (Path.dir (fs.abs path)))).filter fs.isFile).map fs.canonical).eraseDups := by
  refine ⟨_, parse_of_loaded (loadLayer_alone reads), ?_⟩
  have own_files : listedFiles (finish (Path.dir (fs.abs path)) raw ({}, [])).1 =
      files.map (absPattern (Path.dir (fs.abs path))) := by
    simp [listedFiles, finish, Layer.apply, ownLayer, listed]
  have no_patterns : includePatterns (finish (Path.dir (fs.abs path)) raw ({}, [])).1
      (Path.dir (fs.abs path)) = [] := by
    simp [includePatterns, includeSet, finish, Layer.apply, ownLayer, listed, none_included]
  have members := memberFiles_eq fs (finish (Path.dir (fs.abs path)) raw ({}, [])).1 (fs.abs path)
  rw [own_files, foundFiles, no_patterns, List.map_nil, List.flatten_nil, List.append_nil] at members
  exact members

/-- What the text of a configuration says on what it extends, the files it lists and the patterns it has. -/
def evaluated (content : List UInt8) : Option (Option (List String) × Option (List String) × Option (List String)) :=
  ((Json.parse? .lenient (Text.Utf8.decode content)).bind RawConfig.ofJson?).map fun raw =>
    ((extendsList raw.extending).toOption, raw.files, raw.included)

theorem exists_raw {content : List UInt8} {files included : Option (List String)}
    (told : evaluated content = some (some [], files, included)) :
    ∃ value raw, Json.parse? .lenient (Text.Utf8.decode content) = some value ∧ RawConfig.ofJson? value = some raw ∧
      extendsList raw.extending = .ok [] ∧ raw.files = files ∧ raw.included = included := by
  obtain ⟨raw, read, same⟩ := Option.map_eq_some_iff.mp told
  obtain ⟨value, parsed, decoded⟩ := Option.bind_eq_some_iff.mp read
  obtain ⟨alone, rest⟩ := Prod.mk.inj same
  obtain ⟨same_files, same_included⟩ := Prod.mk.inj rest
  refine ⟨value, raw, parsed, decoded, ?_, same_files, same_included⟩
  cases extended : extendsList raw.extending with
  | error e =>
    rw [extended] at alone
    cases alone
  | ok specifiers =>
    rw [extended] at alone
    cases alone
    rfl

theorem exists_reads (fs : FileSystem) {location : Location} {content : List UInt8}
    {files included : Option (List String)}
    (reached : FileTree.Reached fs.tree location) (held : fs.tree.entry? location = some (.file content))
    (openable : FileSystem.Openable (pathOf location)) (told : evaluated content = some (some [], files, included)) :
    ∃ raw, Reads fs (pathOf location) raw [] ∧ raw.files = files ∧ raw.included = included := by
  have rooted : Path.isAbs (pathOf location) = true := Path.isAbs_ofComponents _
  have located : fs.locate maxLinks (pathOf location) = .ok location := by
    rw [FileSystem.locate_of_openable rooted openable, reached.follow]
  have found : fs.read (pathOf location) = .ok content := by simp only [FileSystem.read, located, held]
  obtain ⟨value, raw, parsed, decoded, alone, same⟩ := exists_raw told
  exact ⟨raw, ⟨readRaw_eq_ok.mpr ⟨content, value, found, parsed, decoded⟩, readExtends_eq_ok.mpr alone⟩, same⟩

end

/-! ## Main statement -/

/-- The members of a configuration are the listed files that are there and then what walks find for the
patterns, in the order of the patterns, by canonical paths and each at its first place only. A member is its
own canonical form and leads to a file. No link stands on it, unless the system refuses a path without links
that leads there. Each listed file that is not there, and each specifier that stands for nothing, is reported
once; and that there are no inputs is reported exactly when there are no members. -/
theorem parse_members_canonical {fs : FileSystem} (formed : fs.tree.WellFormed) {path : String} {config : Config}
    (parsed : (parse fs path).value = .ok config) :
    ∃ layer reported found,
      loadLayer fs FileSystem.pathBound [] config.path = .ok (layer, reported) ∧
      List.Forall₂ (WalkFinds fs (excludePatterns layer config.dir)) (includePatterns layer config.dir) found ∧
      config.fileNames = (((listedFiles layer).filter fs.isFile ++ found.flatten).map fs.canonical).eraseDups ∧
      config.fileNames.Nodup ∧
      (∀ file ∈ config.fileNames, fs.canonical file = file ∧ ∃ location, LeadsToFile fs file location ∧
        (file = pathOf location ∧ LinkFree fs file ∨ Refused (fs.resolve file))) ∧
      config.errors.filter (·.code = .fileNotFound) =
        ((visits fs config.path).filterMap Visit.specifier? ++ (listedFiles layer).filter (!fs.isFile ·)).map
          (fun name => (fileNotFound name).inFile config.path) ∧
      ((∃ problem ∈ config.errors, problem.code = .noInputs) ↔ config.fileNames = []) := by
  obtain ⟨layer, reported, loaded, whole, members, errors⟩ := exists_layer parsed
  have rooted : Path.isAbs config.path = true := whole ▸ fs.isAbs_abs path
  rw [members, errors]
  refine ⟨layer, reported, foundFiles fs layer config.dir, loaded, walkFinds_foundFiles fs layer config.dir,
    memberFiles_eq fs layer config.path, nodup_foldl_addNew _ _, ?_, filter_problemsOf fs layer config.path,
    exists_noInputs_problemsOf_iff⟩
  exact fun file mem => canonical_of_mem_memberFiles formed rooted loaded mem

/-- Files that are listed by several paths, one that is missing, and a directory with one file of its own. -/
def pickedFiles : FileSystem where
  tree := ⟨[(["c"], .directory), (["a.ts", "c"], .file []), (["b.ts", "c"], .file []), (["l", "c"], .link "."),
    (["in", "c"], .directory), (["d.ts", "in", "c"], .file []), (["e.ts", "in", "c"], .link "../a.ts"),
    (["tsconfig.json", "c"], .file (Text.Utf8.encode
      "\x7b\"files\": [\"l/b.ts\", \"a.ts\", \"b.ts\", \"none.ts\"], \"include\": [\"in\", \"*.ts\"]\x7d"))]⟩
  cwd := "/c"
  rooted := by decide

/-- Of what the patterns find, only the one file is new. -/
theorem members_pickedFiles :
    pickedFiles.tree.WellFormed ∧ ∃ config, (parse pickedFiles "tsconfig.json").value = .ok config ∧
    config.fileNames = ["/c/b.ts", "/c/a.ts", "/c/in/d.ts"] ∧
    (∀ file ∈ config.fileNames, LinkFree pickedFiles file ∨ Refused (pickedFiles.resolve file)) ∧
    ¬ ∃ problem ∈ config.errors, problem.code = .noInputs := by
  have formed : pickedFiles.tree.WellFormed := by decide
  have members : (parse pickedFiles "tsconfig.json").value.toOption.map (·.fileNames) =
      some ["/c/b.ts", "/c/a.ts", "/c/in/d.ts"] := by decide +kernel
  cases parsed : (parse pickedFiles "tsconfig.json").value with
  | error e =>
    rw [parsed] at members
    cases members
  | ok config =>
    rw [parsed] at members
    have members : config.fileNames = ["/c/b.ts", "/c/a.ts", "/c/in/d.ts"] := Option.some.inj members
    obtain ⟨-, -, -, -, -, -, -, each, -, none_iff⟩ := parse_members_canonical formed parsed
    refine ⟨formed, config, rfl, members, fun file mem => ?_, fun problem => ?_⟩
    · obtain ⟨-, location, -, real | refused⟩ := each file mem
      · exact .inl real.2
      · exact .inr refused
    · rw [none_iff, members] at problem
      cases problem

/-! ## A member too far down -/

section
variable (name : String)

/-- A place below the directory `d` of the project, as deep as is said. -/
def inner (depth : Nat) : Location := List.replicate depth name ++ ["d", "j"]

def innerPlaces : List Location := ["j"] :: (List.range 21).map (inner name)

def farSettings : List UInt8 := Text.Utf8.encode "\x7b\"files\": [\"m/a.ts\"]\x7d"

/-- A file below twenty directories of one name. The link `l` leads half of the way, and the link `m` leads on
from there. -/
def farTree : FileTree where
  entries := (innerPlaces name).map (fun place => (place, .directory)) ++
    [(["tsconfig.json", "j"], .file farSettings),
      (["l", "j"], .link (Path.ofComponents false ("d" :: List.replicate 10 name))),
      (["m", "j"], .link (Path.ofComponents false ("l" :: List.replicate 10 name))),
      ("a.ts" :: inner name 20, .file [])]

variable {name}

theorem inner_mem {depth : Nat} (bounded : depth ≤ 20) : inner name depth ∈ innerPlaces name :=
  List.mem_cons_of_mem _ (List.mem_map_of_mem (List.mem_range.mpr (by omega)))

theorem lookup_directories {places : List Location} {place : Location} :
    (places.map fun place => (place, Entry.directory)).lookup place =
      if place ∈ places then some .directory else none := by
  induction places with
  | nil => rfl
  | cons first rest ih =>
    rw [List.map_cons, List.lookup_cons]
    by_cases same : place = first
    · simp [same]
    · have apart : (place == first) = false := beq_false_of_ne same
      simp [apart, same, ih]

theorem entry?_innerPlaces {place : Location} (mem : place ∈ innerPlaces name) :
    FileTree.entry? (farTree name) place = some .directory := by
  cases place with
  | nil => rfl
  | cons first above =>
    rw [FileTree.entry?, farTree, List.lookup_append, lookup_directories, if_pos mem]
    · rfl
    · exact fun same => by cases same

/-- A place that is not one of the directories is found by its depth. -/
theorem not_mem_innerPlaces {first second : String} (differs : first ≠ "d") : [first, second] ∉ innerPlaces name := by
  intro mem
  rcases List.mem_cons.mp mem with same | mem
  · cases same
  · obtain ⟨depth, -, same⟩ := List.mem_map.mp mem
    have long := congrArg List.length same
    simp only [inner, List.length_append, List.length_replicate, List.length_cons, List.length_nil] at long
    obtain rfl : depth = 0 := by omega
    exact differs (List.cons.inj same).1.symm

theorem not_mem_inner_file : "a.ts" :: inner name 20 ∉ innerPlaces name := by
  intro mem
  rcases List.mem_cons.mp mem with same | mem
  · have long := congrArg List.length same
    simp [inner] at long
  · obtain ⟨depth, bounded, same⟩ := List.mem_map.mp mem
    have long := congrArg List.length same
    simp only [inner, List.length_append, List.length_replicate, List.length_cons, List.length_nil] at long
    have bounded := List.mem_range.mp bounded
    omega

theorem entry?_others {first : String} {above : Location} (other : first :: above ∉ innerPlaces name) :
    FileTree.entry? (farTree name) (first :: above) =
      [(["tsconfig.json", "j"], Entry.file farSettings),
        (["l", "j"], .link (Path.ofComponents false ("d" :: List.replicate 10 name))),
        (["m", "j"], .link (Path.ofComponents false ("l" :: List.replicate 10 name))),
        ("a.ts" :: inner name 20, .file [])].lookup (first :: above) := by
  rw [FileTree.entry?, farTree, List.lookup_append, lookup_directories, if_neg other]
  · rfl
  · exact fun same => by cases same

theorem entries_farTree : FileTree.entry? (farTree name) ["tsconfig.json", "j"] = some (.file farSettings) ∧
    FileTree.entry? (farTree name) ["l", "j"] = some (.link (Path.ofComponents false ("d" :: List.replicate 10 name))) ∧
    FileTree.entry? (farTree name) ["m", "j"] = some (.link (Path.ofComponents false ("l" :: List.replicate 10 name))) ∧
    FileTree.entry? (farTree name) ("a.ts" :: inner name 20) = some (.file []) := by
  have apart : ∀ first, (("a.ts" :: inner name 20 : Location) == [first, "j"]) = false := by
    intro first
    apply beq_false_of_ne
    intro same
    have long := congrArg List.length same
    simp [inner] at long
  rw [entry?_others (not_mem_innerPlaces (by decide)), entry?_others (not_mem_innerPlaces (by decide)),
    entry?_others (not_mem_innerPlaces (by decide)), entry?_others not_mem_inner_file]
  simp [List.lookup_cons, apart]

section
variable (usable : FileTree.Usable name)
include usable

theorem walkable_inner {depth : Nat} (bounded : depth ≤ 20) : FileTree.Walkable (farTree name) (inner name depth) := by
  induction depth with
  | zero =>
    have top : FileTree.Walkable (farTree name) ["j"] := .down .root (by decide) (entry?_innerPlaces List.mem_cons_self)
    exact .down top (by decide) (entry?_innerPlaces (inner_mem bounded))
  | succ depth ih => exact .down (ih (by omega)) usable (entry?_innerPlaces (inner_mem bounded))

theorem wellFormed_farTree : (farTree name).WellFormed where
  once := by
    have places : ((innerPlaces name).map fun place => (place, Entry.directory)).map Prod.fst = innerPlaces name := by
      rw [List.map_map]
      exact List.map_id _
    have increasing : Function.Injective (inner name) := by
      intro depth other same
      have long := congrArg List.length same
      simpa [inner] using long
    rw [farTree, List.map_append, places]
    refine List.nodup_append.mpr ⟨List.nodup_cons.mpr ⟨?_, List.nodup_range.map increasing⟩, by simp, ?_⟩
    · intro mem
      obtain ⟨depth, -, same⟩ := List.mem_map.mp mem
      have long := congrArg List.length same
      simp [inner] at long
    · rintro place mem other listed rfl
      simp only [List.map_cons, List.map_nil, List.mem_cons, List.not_mem_nil, or_false] at listed
      rcases listed with rfl | rfl | rfl | rfl
      · exact not_mem_innerPlaces (by decide) mem
      · exact not_mem_innerPlaces (by decide) mem
      · exact not_mem_innerPlaces (by decide) mem
      · exact not_mem_inner_file mem
  named := by
    have named_inner : ∀ depth, ∀ other ∈ inner name depth, FileTree.Usable other := by
      intro depth other mem
      rcases List.mem_append.mp mem with mem | mem
      · exact List.eq_of_mem_replicate mem ▸ usable
      · exact (by decide : ∀ other ∈ ["d", "j"], FileTree.Usable other) other mem
    intro held mem
    rcases List.mem_append.mp mem with mem | mem
    · obtain ⟨place, listed, rfl⟩ := List.mem_map.mp mem
      rcases List.mem_cons.mp listed with rfl | listed
      · exact (by decide : ∀ other ∈ ["j"], FileTree.Usable other)
      · obtain ⟨depth, -, rfl⟩ := List.mem_map.mp listed
        exact named_inner depth
    · simp only [List.mem_cons, List.not_mem_nil, or_false] at mem
      rcases mem with rfl | rfl | rfl | rfl
      · exact (by decide : ∀ other ∈ ["tsconfig.json", "j"], FileTree.Usable other)
      · exact (by decide : ∀ other ∈ ["l", "j"], FileTree.Usable other)
      · exact (by decide : ∀ other ∈ ["m", "j"], FileTree.Usable other)
      · exact List.forall_mem_cons.mpr ⟨by decide, named_inner 20⟩
  inside := by
    have top : FileTree.entry? (farTree name) ["j"] = some .directory := entry?_innerPlaces List.mem_cons_self
    intro held mem
    rcases List.mem_append.mp mem with mem | mem
    · obtain ⟨place, listed, rfl⟩ := List.mem_map.mp mem
      rcases List.mem_cons.mp listed with rfl | listed
      · exact ⟨List.cons_ne_nil _ _, rfl⟩
      · obtain ⟨depth, bounded, rfl⟩ := List.mem_map.mp listed
        cases depth with
        | zero => exact ⟨List.cons_ne_nil _ _, top⟩
        | succ depth =>
          have bounded := List.mem_range.mp bounded
          exact ⟨List.cons_ne_nil _ _, entry?_innerPlaces (inner_mem (by omega))⟩
    · simp only [List.mem_cons, List.not_mem_nil, or_false] at mem
      rcases mem with rfl | rfl | rfl | rfl
      · exact ⟨List.cons_ne_nil _ _, top⟩
      · exact ⟨List.cons_ne_nil _ _, top⟩
      · exact ⟨List.cons_ne_nil _ _, top⟩
      · exact ⟨List.cons_ne_nil _ _, entry?_innerPlaces (inner_mem (Nat.le_refl 20))⟩

theorem reached_farSettings : FileTree.Reached (farTree name) ["tsconfig.json", "j"] :=
  .file (walkable_inner usable (Nat.zero_le 20)).tail (by decide) entries_farTree.1

theorem follow_farTree :
    (farTree name).follow maxLinks [] (Text.pieces "/j/m/a.ts" '/') = .ok ("a.ts" :: inner name 20) := by
  obtain ⟨-, half, rest, file⟩ := @entries_farTree name
  have proper : ∀ first : String, Path.Proper first → Path.AllProper (first :: List.replicate 10 name) :=
    fun first proper =>
      List.forall_mem_cons.mpr ⟨proper, fun other mem => List.eq_of_mem_replicate mem ▸ usable.toProper⟩
  have names : ∀ first : String, Path.Proper first →
      Text.pieces (Path.ofComponents false (first :: List.replicate 10 name)) '/' = first :: List.replicate 10 name :=
    fun first proper_first => Path.pieces_relative (proper first proper_first) (List.cons_ne_nil _ _)
  have relative : ∀ first : String, Path.Proper first →
      Path.isAbs (Path.ofComponents false (first :: List.replicate 10 name)) = false :=
    fun first proper_first => Path.isAbs_of_proper (proper first proper_first) false
  have top : FileTree.entry? (farTree name) ["j"] = some .directory := entry?_innerPlaces List.mem_cons_self
  -- From the top directory on the names of both targets spell the way down.
  have down : (farTree name).follow 38 ["j"] ("d" :: (List.replicate 10 name ++ (List.replicate 10 name ++ ["a.ts"]))) =
      .ok ("a.ts" :: inner name 20) := by
    obtain ⟨jump, same⟩ := (farTree name).follow_eq_followNames 38
    have reached : FileTree.Reached (farTree name) ("a.ts" :: inner name 20) :=
      .file (walkable_inner usable (Nat.le_refl 20)) (by decide) file
    have whole : (farTree name).followNames jump [] ("a.ts" :: inner name 20).reverse = .ok ("a.ts" :: inner name 20) :=
      reached.followNames
    have names : ("a.ts" :: inner name 20).reverse =
        "j" :: "d" :: (List.replicate 10 name ++ (List.replicate 10 name ++ ["a.ts"])) := by
      rw [← List.append_assoc, List.replicate_append_replicate]
      simp [inner]
    rw [names, FileTree.followNames_cons (by decide), top] at whole
    rw [same]
    exact whole
  have halfway : (farTree name).follow 39 ["j"] ("l" :: (List.replicate 10 name ++ ["a.ts"])) =
      .ok ("a.ts" :: inner name 20) := by
    refine FileTree.followNames_of_leads (.link (by decide : FileTree.Usable "l").plain half ?_)
    rw [relative "d" (by decide), names "d" (by decide)]
    exact down
  have pieces : Text.pieces "/j/m/a.ts" '/' = ["", "j", "m", "a.ts"] := by decide
  rw [pieces]
  refine FileTree.followNames_of_leads (.stays (.inl rfl) (.down (by decide : FileTree.Usable "j").plain top
    (.link (by decide : FileTree.Usable "m").plain rest ?_)))
  rw [relative "l" (by decide), names "l" (by decide)]
  exact halfway

end

/-- The path of the file has more bytes than the system takes. -/
theorem not_openable_inner (long : 250 ≤ name.toList.length) :
    ¬ FileSystem.Openable (pathOf ("a.ts" :: inner name 20)) := by
  intro openable
  have part : (List.replicate 20 name).Sublist ("a.ts" :: inner name 20).reverse := by
    rw [List.reverse_cons, inner, List.reverse_append, List.reverse_replicate]
    exact (List.sublist_append_right _ _).trans (List.sublist_append_left _ _)
  have chars := (Path.ofComponents_sublist part).length_le
  rw [Path.toList_ofComponents (by simp), List.length_flatMap, List.map_replicate, List.sum_replicate_nat,
    List.length_cons] at chars
  have short : Text.Utf8.size (pathOf ("a.ts" :: inner name 20)) < 4096 := openable.2
  have bytes := Text.Utf8.length_le_size (pathOf ("a.ts" :: inner name 20))
  simp only [pathOf] at short bytes
  omega

end

def longName : String := String.ofList (List.replicate 250 'n')

theorem toList_longName : longName.toList = List.replicate 250 'n' := String.toList_ofList

theorem usable_longName : FileTree.Usable longName := by
  have other : ∀ text : String, 'n' ∉ text.toList → longName ≠ text := by
    rintro text absent rfl
    rw [toList_longName] at absent
    exact absent (List.mem_replicate.mpr ⟨by decide, rfl⟩)
  have no_slash : '/' ∉ longName.toList := by
    intro mem
    rw [toList_longName] at mem
    exact absurd (List.mem_replicate.mp mem).2 (by decide)
  refine ⟨⟨other "" (by decide), other "." (by decide), other ".." (by decide), no_slash⟩, ?_⟩
  have byte : (Text.Utf8.encodeChar 'n').length = 1 := by decide +kernel
  rw [Text.Utf8.size, Text.Utf8.encode, toList_longName, List.length_flatMap, List.map_replicate,
    List.sum_replicate_nat, byte]
  decide

def farAway : FileSystem := ⟨farTree longName, "/j", by decide⟩

theorem resolve_farAway : Refused (farAway.resolve "/j/m/a.ts") := by
  have rooted : Path.isAbs "/j/m/a.ts" = true := by decide
  have names : farAway.namesOf "/j/m/a.ts" = Text.pieces "/j/m/a.ts" '/' := FileSystem.namesOf_of_isAbs rooted
  rcases FileSystem.resolveFrom_of_follow (by decide : maxLinks ≤ FileSystem.maxRealLinks)
    (follow_farTree usable_longName) [] with
    found | refused
  · have found : farAway.resolve "/j/m/a.ts" = .ok ("a.ts" :: inner longName 20) := by
      rw [FileSystem.resolve, names]
      exact found
    exact absurd (FileSystem.openable_of_resolve found)
      (not_openable_inner (by rw [toList_longName, List.length_replicate]))
  · rw [FileSystem.resolve, names]
    exact refused

theorem evaluated_farSettings : evaluated farSettings = some (some [], some ["m/a.ts"], none) := by decide +kernel

theorem leadsToFile_farAway : LeadsToFile farAway "/j/m/a.ts" ("a.ts" :: inner longName 20) :=
  ⟨by decide +kernel, follow_farTree usable_longName, [], (@entries_farTree longName).2.2.2⟩

/-- A link stays on the path of a member that is too far down: the canonical form of the path is the path itself. -/
theorem parse_farAway : farAway.tree.WellFormed ∧ ∃ config, (parse farAway "tsconfig.json").value = .ok config ∧
    config.fileNames = ["/j/m/a.ts"] ∧ ¬ LinkFree farAway "/j/m/a.ts" := by
  obtain ⟨settings, -, link, -⟩ := @entries_farTree longName
  obtain ⟨raw, reads, files, included⟩ :=
    exists_reads farAway (reached_farSettings usable_longName) settings (by decide +kernel) evaluated_farSettings
  have path : pathOf ["tsconfig.json", "j"] = farAway.abs "tsconfig.json" := by decide +kernel
  have listed : absPattern (Path.dir (farAway.abs "tsconfig.json")) "m/a.ts" = "/j/m/a.ts" := by decide +kernel
  have is_file : farAway.isFile "/j/m/a.ts" = true := leadsToFile_farAway.isFile (by decide +kernel)
  have stays : farAway.canonical "/j/m/a.ts" = "/j/m/a.ts" :=
    canonical_of_refused leadsToFile_farAway.tidy resolve_farAway
  rw [path] at reads
  obtain ⟨config, parsed, members⟩ := exists_parse_listed reads files included
  rw [List.map_cons, listed, List.map_nil, List.filter_cons_of_pos is_file, List.filter_nil, List.map_cons,
    stays, List.map_nil] at members
  refine ⟨wellFormed_farTree usable_longName, config, parsed, members, fun free => ?_⟩
  exact free ["m", "j"] (by decide +kernel) _ link

end ScriptLoader.Project
