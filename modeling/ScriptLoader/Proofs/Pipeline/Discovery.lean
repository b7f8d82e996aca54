import ScriptLoader.Pipeline.References
import ScriptLoader.Proofs.Pipeline.Stages
import ScriptLoader.Proofs.Project.Parsed
import ScriptLoader.Proofs.ShortPaths
import Mathlib.Logic.Relation

/-!
The search for the projects that a project refers to. It reads each configuration once, and it ends when
all that can be reached has been found: `Found.Faithful` holds after each step, `Found.Complete` at the end.
-/

set_option autoImplicit false
namespace ScriptLoader.Pipeline

open Relation Project

namespace Found

def paths (found : Found) : List String := found.map (·.1)

def configs (found : Found) : List Config := found.filterMap (·.2)

@[simp] theorem paths_append (found added : Found) : paths (found ++ added) = found.paths ++ added.paths :=
  List.map_append

@[simp] theorem configs_append (found added : Found) : configs (found ++ added) = found.configs ++ added.configs :=
  List.filterMap_append

theorem mem_paths {found : Found} {path : String} : path ∈ found.paths ↔ ∃ config?, (path, config?) ∈ found := by
  simp [paths]

theorem mem_configs {found : Found} {config : Config} :
    config ∈ found.configs ↔ ∃ path, (path, some config) ∈ found := by
  simp [configs]

theorem lookup_eq_none {found : Found} {path : String} : found.lookup path = none ↔ path ∉ found.paths := by
  rw [List.lookup_eq_none_iff, mem_paths]
  constructor
  · rintro absent ⟨config?, mem⟩
    simpa using absent (path, config?) mem
  · rintro absent ⟨other, config?⟩ mem
    rw [bne_iff_ne]
    rintro rfl
    exact absent ⟨config?, mem⟩

theorem lookup_eq_some {found : Found} (nodup : found.paths.Nodup) {path : String} {config? : Option Config} :
    found.lookup path = some config? ↔ (path, config?) ∈ found := by
  induction found with
  | nil => simp
  | cons first rest ih =>
    obtain ⟨other, held⟩ := first
    obtain ⟨absent, nodup_rest⟩ := List.nodup_cons.mp nodup
    rw [List.lookup_cons]
    by_cases same : path = other
    · subst same
      have not_later : (path, config?) ∉ rest := fun mem => absent (mem_paths.mpr ⟨config?, mem⟩)
      simp [not_later, eq_comm]
    · have differs : (path == other) = false := by simpa using same
      rw [differs, ih nodup_rest]
      simp [same]

theorem sublist_paths {found : Found} (own : ∀ path config, (path, some config) ∈ found → config.path = path) :
    (found.configs.map (·.path)).Sublist found.paths := by
  induction found with
  | nil => exact .slnil
  | cons first rest ih =>
    have later := ih fun path config mem => own path config (List.mem_cons_of_mem _ mem)
    obtain ⟨path, _ | config⟩ := first
    · exact later.cons path
    · have same := own path config List.mem_cons_self
      subst same
      exact later.cons_cons _

/-- What was found is what reading gives, each path once, and references lead to every path. -/
structure Faithful (fs : FileSystem) (root : String) (found : Found) : Prop where
  nodup : found.paths.Nodup
  read : ∀ path config?, (path, config?) ∈ found → config? = (parse fs path).value.toOption
  reached : ∀ path ∈ found.paths, ReflTransGen (Refers fs) root path

variable {fs : FileSystem} {root : String} {found : Found}

theorem Faithful.concat (faithful : found.Faithful fs root) {path : String} (new : path ∉ found.paths)
    (reached : ReflTransGen (Refers fs) root path) :
    Faithful fs root (found ++ [(path, (parse fs path).value.toOption)]) := by
  constructor
  · rw [paths_append, List.nodup_append]
    refine ⟨faithful.nodup, by simp [paths], ?_⟩
    rintro held mem other other_mem rfl
    obtain rfl : held = path := by simpa [paths] using other_mem
    exact new mem
  · intro other config? mem
    rcases List.mem_append.mp mem with mem | mem
    · exact faithful.read other config? mem
    · obtain ⟨rfl, rfl⟩ := Prod.mk.inj (List.mem_singleton.mp mem)
      rfl
  · intro other mem
    rw [paths_append] at mem
    rcases List.mem_append.mp mem with mem | mem
    · exact faithful.reached other mem
    · obtain rfl : other = path := by simpa [paths] using mem
      exact reached

theorem Faithful.parsed (faithful : found.Faithful fs root) {path : String} {config : Config}
    (mem : (path, some config) ∈ found) : (parse fs path).value = .ok config := by
  have read := faithful.read path (some config) mem
  rcases result : (parse fs path).value with e | held
  · rw [result] at read
    cases read
  · rw [result] at read
    cases read
    rfl

theorem Faithful.mem_of_parsed (faithful : found.Faithful fs root) {path : String} {config : Config}
    (mem : path ∈ found.paths) (parsed : (parse fs path).value = .ok config) : (path, some config) ∈ found := by
  obtain ⟨config?, held⟩ := mem_paths.mp mem
  obtain rfl : config? = some config := by
    rw [faithful.read path config? held, parsed]
    rfl
  exact held

theorem abs_of_reached (clean : fs.abs root = root) {path : String} (reached : ReflTransGen (Refers fs) root path) :
    fs.abs path = path := by
  rcases reached.cases_tail with rfl | ⟨_, -, refers⟩
  · exact clean
  · exact refers.abs.2

variable (clean : fs.abs root = root)
include clean

theorem Faithful.path_eq (faithful : found.Faithful fs root) {path : String} {config : Config}
    (mem : (path, some config) ∈ found) : config.path = path := by
  rw [(parse_eq_ok (faithful.parsed mem)).1]
  exact abs_of_reached clean (faithful.reached path (mem_paths.mpr ⟨_, mem⟩))

theorem Faithful.mem_of_mem_configs (faithful : found.Faithful fs root) {config : Config}
    (mem : config ∈ found.configs) : (config.path, some config) ∈ found := by
  obtain ⟨path, held⟩ := mem_configs.mp mem
  rwa [faithful.path_eq clean held]

theorem Faithful.reached_of_dependency (faithful : found.Faithful fs root) {config : Config}
    (mem : config ∈ found.configs) {path : String} (dependency : path ∈ (nodeOf config).dependencies) :
    ReflTransGen (Refers fs) root path := by
  have held := faithful.mem_of_mem_configs clean mem
  have refers : Refers fs config.path path := ⟨config, faithful.parsed held, dependency⟩
  exact (faithful.reached config.path (mem_paths.mpr ⟨_, held⟩)).tail refers

theorem Faithful.nodup_configs (faithful : found.Faithful fs root) : (found.configs.map (·.path)).Nodup :=
  (sublist_paths fun _ _ mem => faithful.path_eq clean mem).nodup faithful.nodup

/-- There are never more configurations than paths that can be opened. -/
theorem Faithful.length_configs_le (faithful : found.Faithful fs root) :
    found.configs.length ≤ FileSystem.pathBound := by
  have bounded := FileSystem.length_le_pathBound (faithful.nodup_configs clean) (by
    intro path mem
    obtain ⟨config, held, rfl⟩ := List.mem_map.mp mem
    exact size_path_lt (faithful.parsed (faithful.mem_of_mem_configs clean held)))
  rwa [List.length_map] at bounded

end Found

section
variable {fs : FileSystem} {root : String} {found : Found}

theorem readReferences_known {path : String} (known : path ∈ found.paths) (rest : List String) :
    readReferences fs found (path :: rest) = readReferences fs found rest := by
  rw [readReferences, if_pos]
  rw [Option.isSome_iff_ne_none]
  exact fun none => Found.lookup_eq_none.mp none known

theorem value_readReferences_new {path : String} (new : path ∉ found.paths) (rest : List String) :
    (readReferences fs found (path :: rest)).value =
      let later := (readReferences fs (found ++ [(path, (parse fs path).value.toOption)]) rest).value
      (later.1, (parse fs path).value.toOption.toList ++ later.2) := by
  rw [readReferences, if_neg (by simp [Found.lookup_eq_none.mpr new])]
  simp only [Run.value_bind, Run.value_relabel]
  cases (parse fs path).value with
  | error e => rfl
  | ok config => rfl

/-- Reading references adds what is new among them. -/
theorem readReferences_spec (faithful : found.Faithful fs root) {paths : List String}
    (reached : ∀ path ∈ paths, ReflTransGen (Refers fs) root path) :
    ∃ added, (readReferences fs found paths).value = (found ++ added, Found.configs added) ∧
      (found ++ added).Faithful fs root ∧ ∀ path ∈ paths, path ∈ Found.paths (found ++ added) := by
  induction paths generalizing found with
  | nil => exact ⟨[], by simp [readReferences, Found.configs], by simpa using faithful, by simp⟩
  | cons path rest ih =>
    have reached_rest := fun other mem => reached other (List.mem_cons_of_mem path mem)
    by_cases known : path ∈ found.paths
    · obtain ⟨added, read, faithful, covered⟩ := ih faithful reached_rest
      refine ⟨added, by rw [readReferences_known known, read], faithful, ?_⟩
      intro other mem
      rcases List.mem_cons.mp mem with rfl | mem
      · rw [Found.paths_append]
        exact List.mem_append_left _ known
      · exact covered other mem
    · have one_more := faithful.concat known (reached path List.mem_cons_self)
      obtain ⟨added, read, faithful, covered⟩ := ih one_more reached_rest
      refine ⟨(path, (parse fs path).value.toOption) :: added, ?_, by simpa using faithful, ?_⟩
      · rw [value_readReferences_new known, read]
        cases (parse fs path).value <;> simp [Found.configs, Except.toOption]
      · intro other mem
        rcases List.mem_cons.mp mem with rfl | mem
        · simp [Found.paths]
        · simpa [Found.paths] using covered other mem

/-- The search adds the configurations that can be reached from those that wait, and makes a node of each. The fuel
has to suffice for those that wait and for all that were not found yet. -/
theorem discover_spec (clean : fs.abs root = root) {fuel : Nat} {waiting : List Config}
    (faithful : found.Faithful fs root) (held : ∀ config ∈ waiting, config ∈ found.configs)
    (enough : waiting.length + FileSystem.pathBound ≤ fuel + found.configs.length) :
    ∃ added, (discover fs fuel found waiting).value =
        (found ++ added, (waiting ++ Found.configs added).map nodeOf) ∧
      (found ++ added).Faithful fs root ∧
      ∀ config ∈ waiting ++ Found.configs added, ∀ path ∈ (nodeOf config).dependencies,
        path ∈ Found.paths (found ++ added) := by
  induction fuel generalizing found waiting with
  | zero =>
    -- Without fuel everything that can be opened was found, and nothing waits.
    have bounded := faithful.length_configs_le clean
    obtain rfl : waiting = [] := List.eq_nil_of_length_eq_zero (by omega)
    exact ⟨[], by simp [discover, Found.configs], by simpa using faithful, by simp [Found.configs]⟩
  | succ fuel ih =>
    cases waiting with
    | nil => exact ⟨[], by simp [discover, Found.configs], by simpa using faithful, by simp [Found.configs]⟩
    | cons config waiting =>
      obtain ⟨first, read, faithful, covered⟩ := readReferences_spec faithful fun path dependency =>
        faithful.reached_of_dependency clean (held config List.mem_cons_self) dependency
      have held' : ∀ other ∈ waiting ++ Found.configs first, other ∈ Found.configs (found ++ first) := by
        intro other mem
        rw [Found.configs_append]
        rcases List.mem_append.mp mem with mem | mem
        · exact List.mem_append_left _ (held other (List.mem_cons_of_mem config mem))
        · exact List.mem_append_right _ mem
      -- Each configuration that is added waits and is found, so that the bound is kept.
      have enough' : (waiting ++ Found.configs first).length + FileSystem.pathBound ≤
          fuel + (Found.configs (found ++ first)).length := by
        simp only [Found.configs_append, List.length_append, List.length_cons] at enough ⊢
        omega
      obtain ⟨second, discovered, faithful, closed⟩ := ih faithful held' enough'
      refine ⟨first ++ second, ?_, by simpa using faithful, ?_⟩
      · simp [discover, read, discovered, Found.configs_append]
      · intro other mem path dependency
        rw [← List.append_assoc]
        rw [Found.configs_append, List.cons_append, ← List.append_assoc] at mem
        rcases List.mem_cons.mp mem with rfl | mem
        · rw [Found.paths_append]
          exact List.mem_append_left _ (covered path dependency)
        · exact closed other mem path dependency

theorem readReferences_logs (fs : FileSystem) (found : Found) (paths : List String) :
    ∃ logs : List LogEntry, (readReferences fs found paths).trace = logs.map .log := by
  induction paths generalizing found with
  | nil => exact ⟨[], rfl⟩
  | cons path rest ih =>
    rw [readReferences]
    split
    · exact ih found
    · simp only [Run.trace_bind, Run.value_relabel, Run.trace_relabel]
      cases (parse fs path).value with
      | error e =>
        obtain ⟨logs, later⟩ := ih (found ++ [(path, none)])
        exact ⟨(parse fs path).trace ++ .debug "pipeline" "referenced project unusable"
          [("config", .text path), ("error", .text e.message)] :: logs, by simp [later]⟩
      | ok config =>
        obtain ⟨logs, later⟩ := ih (found ++ [(path, some config)])
        exact ⟨(parse fs path).trace ++ logs, by simp [later]⟩

theorem discover_logs (fs : FileSystem) (fuel : Nat) (found : Found) (waiting : List Config) :
    ∃ logs : List LogEntry, (discover fs fuel found waiting).trace = logs.map .log := by
  induction fuel generalizing found waiting with
  | zero => exact ⟨[], rfl⟩
  | succ fuel ih =>
    cases waiting with
    | nil => exact ⟨[], rfl⟩
    | cons config waiting =>
      obtain ⟨first, read⟩ := readReferences_logs fs found (nodeOf config).dependencies
      let reading := (readReferences fs found (nodeOf config).dependencies).value
      obtain ⟨second, discovered⟩ := ih reading.1 (waiting ++ reading.2)
      exact ⟨first ++ second, by simp [discover, read, discovered, reading]⟩

end

/-- Everything that references lead to was found. -/
structure Found.Complete (fs : FileSystem) (root : String) (found : Found) : Prop extends found.Faithful fs root where
  clean : fs.abs root = root
  started : root ∈ found.paths
  closed : ∀ config ∈ found.configs, ∀ path ∈ (nodeOf config).dependencies, path ∈ found.paths

theorem Found.Complete.mem_paths_iff {fs : FileSystem} {root : String} {found : Found}
    (complete : found.Complete fs root)
    {path : String} : path ∈ found.paths ↔ ReflTransGen (Refers fs) root path := by
  constructor
  · exact complete.reached path
  · intro reached
    induction reached with
    | refl => exact complete.started
    | tail _ refers ih =>
      obtain ⟨config, parsed, dependency⟩ := refers
      have held := complete.mem_of_parsed ih parsed
      exact complete.closed config (Found.mem_configs.mpr ⟨_, held⟩) _ dependency

/-- What is found is what references lead to and what can be used. -/
theorem Found.Complete.mem_iff {fs : FileSystem} {root : String} {found : Found} (complete : found.Complete fs root)
    {path : String} {config : Config} :
    (path, some config) ∈ found ↔ ReflTransGen (Refers fs) root path ∧ (parse fs path).value = .ok config := by
  constructor
  · intro mem
    exact ⟨complete.reached path (Found.mem_paths.mpr ⟨_, mem⟩), complete.parsed mem⟩
  · rintro ⟨reached, parsed⟩
    exact complete.mem_of_parsed (complete.mem_paths_iff.mpr reached) parsed

/-- The search from a configuration finds everything that its references lead to. -/
theorem discover_complete {fs : FileSystem} {file : String} {root : Config}
    (parsed : (parse fs file).value = .ok root) :
    ∃ found : Found, (discover fs FileSystem.pathBound [(root.path, some root)] [root]).value =
      (found, found.configs.map nodeOf) ∧ found.Complete fs root.path := by
  have clean : fs.abs root.path = root.path := by rw [(parse_eq_ok parsed).1, fs.abs_abs]
  have start : Found.Faithful fs root.path [(root.path, some root)] := by
    refine ⟨by simp [Found.paths], ?_, ?_⟩
    · intro path config? mem
      obtain ⟨rfl, rfl⟩ := Prod.mk.inj (List.mem_singleton.mp mem)
      rw [parse_path parsed]
      rfl
    · intro path mem
      obtain rfl : path = root.path := by simpa [Found.paths] using mem
      exact .refl
  have enough : [root].length + FileSystem.pathBound ≤
      FileSystem.pathBound + (Found.configs [(root.path, some root)]).length := by
    simp [Found.configs, Nat.add_comm]
  obtain ⟨added, discovered, faithful, closed⟩ := discover_spec clean start (by simp [Found.configs]) enough
  exact ⟨_, by rw [discovered]; simp [Found.configs], faithful, clean, by simp [Found.paths],
    by simpa [Found.configs] using closed⟩

end ScriptLoader.Pipeline
