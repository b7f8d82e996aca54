import ScriptLoader.Proofs.Graph.Walks
import ScriptLoader.Proofs.Project.Parsed
import ScriptLoader.Proofs.ShortPaths
import Mathlib.Data.List.Chain

/-!
Configuration files and the files they extend, by the paths under which these are read. Reading follows the files one
within the other and so ends well exactly if they do not go round; the paths on the way are distinct, which bounds how
deep it goes.
-/

set_option autoImplicit false
namespace ScriptLoader.Project

open Relation ScriptLoader.Graph

section
variable {fs : FileSystem}

theorem resolveExtendsPath?_eq_some {path base : String} (resolved : resolveExtendsPath? fs path = some base) :
    (base = path ∨ base = path ++ ".json") ∧ fs.isFile base = true := by
  rw [resolveExtendsPath?] at resolved
  split at resolved
  · rename_i found
    cases resolved
    exact ⟨.inl rfl, found⟩
  · split at resolved
    · rename_i found
      cases resolved
      rw [Bool.and_eq_true] at found
      exact ⟨.inr rfl, found.2⟩
    · cases resolved

theorem isFile_of_resolveExtends? {specifier dir base : String}
    (resolved : resolveExtends? fs specifier dir = some base) :
    fs.isFile base = true := by
  rw [resolveExtends?] at resolved
  split at resolved
  · exact (resolveExtendsPath?_eq_some resolved).2
  · exact List.find?_some resolved

theorem isAbs_of_resolveExtends? {specifier dir base : String} (rooted : Path.isAbs dir = true)
    (resolved : resolveExtends? fs specifier dir = some base) : Path.isAbs base = true := by
  rw [resolveExtends?] at resolved
  split at resolved
  · have from_root : Path.isAbs (if Path.isAbs specifier then specifier else Path.join [dir, specifier]) = true := by
      split
      · assumption
      · exact Path.isAbs_join rooted specifier
    rcases (resolveExtendsPath?_eq_some resolved).1 with rfl | rfl
    · exact from_root
    · exact Path.isAbs_append from_root _
  · obtain ⟨above, higher, candidate⟩ := List.mem_flatMap.mp (List.mem_of_find?_eq_some resolved)
    have from_root : Path.isAbs (Path.join [above, "node_modules", specifier]) = true :=
      Path.isAbs_join_cons (Path.isAbs_of_mem_ancestors rooted higher) _
    simp only [packageCandidates, List.mem_cons, List.not_mem_nil, or_false] at candidate
    rcases candidate with rfl | rfl | rfl
    · exact from_root
    · exact Path.isAbs_append from_root _
    · exact Path.isAbs_join from_root _

/-- A configuration file can be read, and these are what it says and the specifiers of what it extends. -/
def Reads (fs : FileSystem) (path : String) (raw : RawConfig) (specifiers : List String) : Prop :=
  readRaw fs path = .ok raw ∧ readExtends path raw = .ok specifiers

def Decodes (fs : FileSystem) (path : String) : Prop := ∃ raw specifiers, Reads fs path raw specifiers

/-- One of the specifiers in a configuration file stands for another file. -/
def Extends (fs : FileSystem) (path base : String) : Prop :=
  ∃ raw specifiers, Reads fs path raw specifiers ∧
    ∃ specifier ∈ specifiers, resolveExtends? fs specifier (Path.dir path) = some base

variable {path base : String} {raw : RawConfig} {specifiers : List String}

theorem Reads.unique (reads : Reads fs path raw specifiers) {raw' : RawConfig} {specifiers' : List String}
    (reads' : Reads fs path raw' specifiers') : raw' = raw ∧ specifiers' = specifiers := by
  obtain rfl : raw' = raw := Except.ok.inj (reads'.1.symm.trans reads.1)
  exact ⟨rfl, Except.ok.inj (reads'.2.symm.trans reads.2)⟩

theorem Reads.extends_iff (reads : Reads fs path raw specifiers) :
    Extends fs path base ↔ ∃ specifier ∈ specifiers, resolveExtends? fs specifier (Path.dir path) = some base := by
  constructor
  · rintro ⟨raw', specifiers', reads', named⟩
    obtain ⟨-, rfl⟩ := reads.unique reads'
    exact named
  · exact fun named => ⟨raw, specifiers, reads, named⟩

theorem Extends.size_lt (ext : Extends fs path base) : Text.Utf8.size path < FileSystem.maxPathSize := by
  obtain ⟨raw, specifiers, reads, -⟩ := ext
  exact size_lt_of_readRaw reads.1

theorem Extends.size_base_lt (ext : Extends fs path base) : Text.Utf8.size base < FileSystem.maxPathSize := by
  obtain ⟨raw, specifiers, -, specifier, -, resolved⟩ := ext
  exact FileSystem.size_lt_of_isFile (isFile_of_resolveExtends? resolved)

/-- The files that a configuration file extends, in the order of their specifiers, if it can be read. -/
def bases? (fs : FileSystem) (path : String) : Option (List String) :=
  match readRaw fs path with
  | .error _ => none
  | .ok raw =>
    match readExtends path raw with
    | .error _ => none
    | .ok specifiers => some (specifiers.filterMap fun specifier => resolveExtends? fs specifier (Path.dir path))

theorem Reads.bases?_eq (reads : Reads fs path raw specifiers) :
    bases? fs path = some (specifiers.filterMap fun specifier => resolveExtends? fs specifier (Path.dir path)) := by
  simp only [bases?, reads.1, reads.2]

theorem decodes_iff : Decodes fs path ↔ (bases? fs path).isSome = true := by
  constructor
  · rintro ⟨raw, specifiers, reads⟩
    rw [reads.bases?_eq, Option.isSome_some]
  · intro known
    rw [bases?] at known
    split at known
    · cases known
    · rename_i raw read
      split at known
      · cases known
      · rename_i specifiers extending
        exact ⟨raw, specifiers, read, extending⟩

theorem extends_iff : Extends fs path base ↔ base ∈ (bases? fs path).getD [] := by
  by_cases decodes : Decodes fs path
  · obtain ⟨raw, specifiers, reads⟩ := decodes
    rw [reads.extends_iff, reads.bases?_eq, Option.getD_some, List.mem_filterMap]
  · have unknown : bases? fs path = none := by
      rw [decodes_iff, Option.not_isSome_iff_eq_none] at decodes
      exact decodes
    rw [unknown, Option.getD_none]
    constructor
    · rintro ⟨raw, specifiers, reads, -⟩
      exact absurd ⟨raw, specifiers, reads⟩ decodes
    · exact fun mem => absurd mem List.not_mem_nil

theorem not_reachesCycle_of_bases {bases : List String} (known : bases? fs path = some bases)
    (each : ∀ base ∈ bases, ¬ReachesCycle (Extends fs) base) : ¬ReachesCycle (Extends fs) path := by
  intro cyclic
  obtain ⟨base, ext, cyclic⟩ := cyclic.step
  rw [extends_iff, known, Option.getD_some] at ext
  exact each base ext cyclic

/-- Files that can be read and hold among them what each extends lead to no other file. -/
theorem mem_of_reached {files : List String}
    (closed : ∀ file ∈ files, ∃ bases, bases? fs file = some bases ∧ ∀ base ∈ bases, base ∈ files) (mem : path ∈ files)
    (reached : ReflTransGen (Extends fs) path base) : base ∈ files := by
  induction reached with
  | refl => exact mem
  | tail _ last ih =>
    obtain ⟨bases, known, among⟩ := closed _ ih
    rw [extends_iff, known, Option.getD_some] at last
    exact among _ last

theorem decodes_of_reached {files : List String}
    (closed : ∀ file ∈ files, ∃ bases, bases? fs file = some bases ∧ ∀ base ∈ bases, base ∈ files) (mem : path ∈ files)
    (reached : ReflTransGen (Extends fs) path base) : Decodes fs base := by
  obtain ⟨bases, known, -⟩ := closed base (mem_of_reached closed mem reached)
  rw [decodes_iff, known, Option.isSome_some]

instance (fs : FileSystem) (path : String) : Decidable (Decodes fs path) := decidable_of_iff _ decodes_iff.symm

instance (fs : FileSystem) (path base : String) : Decidable (Extends fs path base) :=
  decidable_of_iff _ extends_iff.symm

end

/-! ## The files that one file extends -/

section
variable {fs : FileSystem} {dir : String} {load : String → Except ConfigError (Layer × List Diagnostic)}
  {held : Layer × List Diagnostic} {specifiers : List String}

theorem addBase_missing {specifier : String} (missing : resolveExtends? fs specifier dir = none) :
    addBase fs dir load held specifier = .ok (held.1, held.2 ++ [fileNotFound specifier]) := by
  simp only [addBase, missing]

theorem addBase_found {specifier base : String} (resolved : resolveExtends? fs specifier dir = some base) :
    addBase fs dir load held specifier =
      (load base).map fun layer => (held.1.apply layer.1, held.2 ++ layer.2) := by
  simp only [addBase, resolved]
  cases load base <;> rfl

theorem loaded_of_foldlM_addBase {below : Layer × List Diagnostic}
    (folded : specifiers.foldlM (addBase fs dir load) held = .ok below) {specifier base : String}
    (mem : specifier ∈ specifiers) (resolved : resolveExtends? fs specifier dir = some base) :
    ∃ layer, load base = .ok layer := by
  induction specifiers generalizing held with
  | nil => cases mem
  | cons first rest ih =>
    rw [List.foldlM_cons] at folded
    cases added : addBase fs dir load held first with
    | error e =>
      rw [added] at folded
      cases folded
    | ok next =>
      rw [added] at folded
      rcases List.mem_cons.mp mem with rfl | later
      · rw [addBase_found resolved] at added
        cases found : load base with
        | error e => simp [found, Except.map] at added
        | ok layer => exact ⟨layer, rfl⟩
      · exact ih folded later

theorem failed_of_foldlM_addBase {e : ConfigError}
    (folded : specifiers.foldlM (addBase fs dir load) held = .error e) :
    ∃ specifier ∈ specifiers, ∃ base, resolveExtends? fs specifier dir = some base ∧ load base = .error e := by
  induction specifiers generalizing held with
  | nil => cases folded
  | cons specifier rest ih =>
    rw [List.foldlM_cons] at folded
    have later : ∀ next, rest.foldlM (addBase fs dir load) next = .error e →
        ∃ other ∈ specifier :: rest, ∃ base, resolveExtends? fs other dir = some base ∧ load base = .error e := by
      intro next failed
      obtain ⟨other, mem, found⟩ := ih failed
      exact ⟨other, List.mem_cons_of_mem _ mem, found⟩
    cases resolved : resolveExtends? fs specifier dir with
    | none =>
      rw [addBase_missing resolved] at folded
      exact later _ folded
    | some base =>
      rw [addBase_found resolved] at folded
      cases found : load base with
      | error other =>
        rw [found] at folded
        cases folded
        exact ⟨specifier, List.mem_cons_self, base, resolved, found⟩
      | ok layer =>
        rw [found] at folded
        exact later _ folded

theorem foldlM_addBase_congr {load' : String → Except ConfigError (Layer × List Diagnostic)}
    (same : ∀ specifier ∈ specifiers, ∀ base, resolveExtends? fs specifier dir = some base → load base = load' base) :
    specifiers.foldlM (addBase fs dir load) held = specifiers.foldlM (addBase fs dir load') held := by
  induction specifiers generalizing held with
  | nil => rfl
  | cons specifier rest ih =>
    have first : addBase fs dir load held specifier = addBase fs dir load' held specifier := by
      cases resolved : resolveExtends? fs specifier dir with
      | none => rw [addBase_missing resolved, addBase_missing resolved]
      | some base =>
        rw [addBase_found resolved, addBase_found resolved, same specifier List.mem_cons_self base resolved]
    rw [List.foldlM_cons, List.foldlM_cons, first]
    congr 1
    funext next
    exact ih fun other mem => same other (List.mem_cons_of_mem _ mem)

end

/-! ## One file within the other -/

def finish (dir : String) (raw : RawConfig) (held : Layer × List Diagnostic) : Layer × List Diagnostic :=
  ({ held.1.apply (ownLayer dir raw).1 with references := (ownLayer dir raw).1.references },
    held.2 ++ (ownLayer dir raw).2)

section
variable {fs : FileSystem} {fuel : Nat} {chain : List String} {path base : String}

theorem loadLayer_succ (fs : FileSystem) (fuel : Nat) (chain : List String) (path : String) :
    loadLayer fs (fuel + 1) chain path =
      if path ∈ chain then .error (.circular (chain ++ [path]))
      else (readRaw fs path).bind fun raw => (readExtends path raw).bind fun specifiers =>
        (specifiers.foldlM (addBase fs (Path.dir path) (loadLayer fs fuel (chain ++ [path]))) ({}, [])).map
          (finish (Path.dir path) raw) := by
  rw [loadLayer]
  simp only [List.contains_iff_mem]
  split
  · rfl
  · cases readRaw fs path with
    | error e => rfl
    | ok raw =>
      simp only [bind, Except.bind]
      cases readExtends path raw with
      | error e => rfl
      | ok specifiers =>
        dsimp only
        cases specifiers.foldlM (addBase fs (Path.dir path) (loadLayer fs fuel (chain ++ [path]))) ({}, []) <;> rfl

theorem loadLayer_of_mem (again : path ∈ chain) (fuel : Nat) :
    loadLayer fs fuel chain path = .error (.circular (chain ++ [path])) := by
  cases fuel with
  | zero => rfl
  | succ fuel => rw [loadLayer_succ, if_pos again]

theorem loadLayer_of_reads {raw : RawConfig} {specifiers : List String} (new : path ∉ chain)
    (reads : Reads fs path raw specifiers) :
    loadLayer fs (fuel + 1) chain path =
      (specifiers.foldlM (addBase fs (Path.dir path) (loadLayer fs fuel (chain ++ [path]))) ({}, [])).map
        (finish (Path.dir path) raw) := by
  rw [loadLayer_succ, if_neg new, reads.1]
  simp only [Except.bind, reads.2]

theorem readRaw_ne_circular {e : ConfigError} (failed : readRaw fs path = .error e) (circle : List String) :
    e ≠ .circular circle := by
  rintro rfl
  rw [readRaw] at failed
  split at failed
  · cases failed
  · split at failed
    · cases failed
    · split at failed <;> cases failed

theorem readExtends_ne_circular {raw : RawConfig} {e : ConfigError} (failed : readExtends path raw = .error e)
    (circle : List String) : e ≠ .circular circle := by
  rintro rfl
  rw [readExtends] at failed
  split at failed <;> cases failed

/-- A file that cannot be read fails in one way, which is not because of a circle. -/
theorem loadLayer_of_not_decodes (new : path ∉ chain) (broken : ¬Decodes fs path) :
    ∃ e, (∀ circle, e ≠ .circular circle) ∧ ∀ fuel, loadLayer fs (fuel + 1) chain path = .error e := by
  cases read : readRaw fs path with
  | error e =>
    refine ⟨e, readRaw_ne_circular read, fun fuel => ?_⟩
    rw [loadLayer_succ, if_neg new, read]
    rfl
  | ok raw =>
    cases extending : readExtends path raw with
    | error e =>
      refine ⟨e, readExtends_ne_circular extending, fun fuel => ?_⟩
      rw [loadLayer_succ, if_neg new, read]
      simp only [Except.bind, extending]
    | ok specifiers => exact absurd ⟨raw, specifiers, read, extending⟩ broken

/-- A file that was loaded can be read, and is put on top of what it extends. -/
theorem of_loadLayer_eq_ok {result : Layer × List Diagnostic}
    (loaded : loadLayer fs (fuel + 1) chain path = .ok result) :
    ∃ raw specifiers below, Reads fs path raw specifiers ∧
      specifiers.foldlM (addBase fs (Path.dir path) (loadLayer fs fuel (chain ++ [path]))) ({}, []) = .ok below ∧
      result = finish (Path.dir path) raw below := by
  by_cases again : path ∈ chain
  · rw [loadLayer_of_mem again] at loaded
    cases loaded
  · by_cases decodes : Decodes fs path
    · obtain ⟨raw, specifiers, reads⟩ := decodes
      rw [loadLayer_of_reads again reads] at loaded
      cases folded : specifiers.foldlM (addBase fs (Path.dir path) (loadLayer fs fuel (chain ++ [path]))) ({}, []) with
      | error e => simp [folded, Except.map] at loaded
      | ok below =>
        rw [folded] at loaded
        cases loaded
        exact ⟨raw, specifiers, below, reads, folded, rfl⟩
    · obtain ⟨e, -, failed⟩ := loadLayer_of_not_decodes again decodes
      cases (failed fuel).symm.trans loaded

/-- What can be loaded does not lead round. -/
theorem not_reachesCycle_of_loaded {result : Layer × List Diagnostic}
    (loaded : loadLayer fs fuel chain path = .ok result) :
    ¬ReachesCycle (Extends fs) path := by
  induction fuel generalizing chain path result with
  | zero => cases loaded
  | succ fuel ih =>
    intro cyclic
    obtain ⟨raw, specifiers, below, reads, folded, -⟩ := of_loadLayer_eq_ok loaded
    obtain ⟨base, ext, cyclic⟩ := cyclic.step
    obtain ⟨specifier, mem, resolved⟩ := reads.extends_iff.mp ext
    obtain ⟨layer, found⟩ := loaded_of_foldlM_addBase folded mem resolved
    exact ih found cyclic

/-- A new file fails by itself, which is not because of a circle, or because of one that it extends. -/
theorem failed_at {e : ConfigError} (new : path ∉ chain) (failed : loadLayer fs (fuel + 1) chain path = .error e) :
    (¬Decodes fs path ∧ ∀ circle, e ≠ .circular circle) ∨
      ∃ base, Extends fs path base ∧ loadLayer fs fuel (chain ++ [path]) base = .error e := by
  by_cases decodes : Decodes fs path
  · obtain ⟨raw, specifiers, reads⟩ := decodes
    rw [loadLayer_of_reads new reads] at failed
    cases folded : specifiers.foldlM (addBase fs (Path.dir path) (loadLayer fs fuel (chain ++ [path]))) ({}, []) with
    | ok below => simp [folded, Except.map] at failed
    | error other =>
      rw [folded] at failed
      cases failed
      obtain ⟨specifier, mem, base, resolved, failed⟩ := failed_of_foldlM_addBase folded
      exact .inr ⟨base, reads.extends_iff.mpr ⟨specifier, mem, resolved⟩, failed⟩
  · obtain ⟨other, not_circular, failed'⟩ := loadLayer_of_not_decodes new decodes
    cases (failed' fuel).symm.trans failed
    exact .inl ⟨decodes, not_circular⟩

/-- Loading fails because of a circle or because of a file that cannot be read. -/
theorem of_loadLayer_eq_error {e : ConfigError} (failed : loadLayer fs fuel chain path = .error e) :
    (∃ circle, e = .circular circle) ∨ ∃ file, ReflTransGen (Extends fs) path file ∧ ¬Decodes fs file := by
  induction fuel generalizing chain path with
  | zero =>
    cases failed
    exact .inl ⟨_, rfl⟩
  | succ fuel ih =>
    by_cases again : path ∈ chain
    · rw [loadLayer_of_mem again] at failed
      cases failed
      exact .inl ⟨_, rfl⟩
    · rcases failed_at again failed with ⟨broken, -⟩ | ⟨base, ext, failed⟩
      · exact .inr ⟨path, .refl, broken⟩
      · rcases ih failed with circle | ⟨file, reached, broken⟩
        · exact .inl circle
        · exact .inr ⟨file, reached.head ext, broken⟩

/-! ## How deep it goes -/

/-- The files that are being read when another one is come to: they are distinct, and each extends the next. -/
structure Underway (fs : FileSystem) (chain : List String) (path : String) : Prop where
  nodup : chain.Nodup
  walk : (chain ++ [path]).IsChain (Extends fs)

theorem Underway.start (fs : FileSystem) (path : String) : Underway fs [] path :=
  ⟨List.nodup_nil, List.isChain_singleton path⟩

theorem Underway.leads (underway : Underway fs chain path) {file : String} (mem : file ∈ chain) :
    TransGen (Extends fs) file path :=
  transGen_of_isChain underway.walk mem

theorem Underway.next (underway : Underway fs chain path) (new : path ∉ chain) (ext : Extends fs path base) :
    Underway fs (chain ++ [path]) base := by
  constructor
  · refine List.nodup_append.mpr ⟨underway.nodup, List.nodup_singleton path, ?_⟩
    rintro file mem _ same rfl
    exact new (List.mem_singleton.mp same ▸ mem)
  · rw [List.isChain_append]
    refine ⟨underway.walk, List.isChain_singleton base, ?_⟩
    intro last at_end first at_start
    rw [List.getLast?_concat, Option.mem_some_iff] at at_end
    rw [List.head?_cons, Option.mem_some_iff] at at_start
    exact at_end ▸ at_start ▸ ext

/-- As long as a file is new, there are fewer files underway than paths that can be opened. -/
theorem Underway.length_lt (underway : Underway fs chain path) (new : path ∉ chain) :
    chain.length < FileSystem.pathBound := by
  by_cases none_yet : chain = []
  · rw [none_yet]
    exact FileSystem.length_le_pathBound (List.nodup_singleton "/") (by decide)
  · have short_path : Text.Utf8.size path < FileSystem.maxPathSize := by
      obtain ⟨file, mem⟩ := List.exists_mem_of_ne_nil chain none_yet
      obtain ⟨last, -, ext⟩ := TransGen.tail'_iff.mp (underway.leads mem)
      exact ext.size_base_lt
    have distinct : (path :: chain).Nodup := List.nodup_cons.mpr ⟨new, underway.nodup⟩
    refine FileSystem.length_le_pathBound distinct ?_
    intro file mem
    rcases List.mem_cons.mp mem with rfl | mem
    · exact short_path
    · obtain ⟨next, ext, -⟩ := TransGen.head'_iff.mp (underway.leads mem)
      exact ext.size_lt

/-- With enough fuel, more of it makes no difference: the reading ends by itself. -/
theorem loadLayer_fuel {fuel' : Nat} (underway : Underway fs chain path)
    (enough : FileSystem.pathBound ≤ chain.length + fuel) (enough' : FileSystem.pathBound ≤ chain.length + fuel') :
    loadLayer fs fuel chain path = loadLayer fs fuel' chain path := by
  induction fuel generalizing fuel' chain path with
  | zero =>
    by_cases again : path ∈ chain
    · rw [loadLayer_of_mem again, loadLayer_of_mem again]
    · have := underway.length_lt again
      omega
  | succ fuel ih =>
    by_cases again : path ∈ chain
    · rw [loadLayer_of_mem again, loadLayer_of_mem again]
    · have deeper := underway.length_lt again
      obtain ⟨fuel', rfl⟩ : ∃ fuel'', fuel' = fuel'' + 1 := ⟨fuel' - 1, by omega⟩
      by_cases decodes : Decodes fs path
      · obtain ⟨raw, specifiers, reads⟩ := decodes
        rw [loadLayer_of_reads again reads, loadLayer_of_reads again reads]
        congr 1
        apply foldlM_addBase_congr
        intro specifier mem base resolved
        -- One more file is underway, for the one step that both have spent.
        apply ih (underway.next again (reads.extends_iff.mpr ⟨specifier, mem, resolved⟩))
        · rw [List.length_append, List.length_singleton]
          omega
        · rw [List.length_append, List.length_singleton]
          omega
      · obtain ⟨e, -, failed⟩ := loadLayer_of_not_decodes again decodes
        rw [failed, failed]

/-- A circle that is reported is a way along which each file extends the next, up to one that was there before. -/
structure Circle (fs : FileSystem) (path : String) (chain : List String) : Prop where
  starts : chain.head? = some path
  walk : chain.IsChain (Extends fs)
  returns : ∃ before last, chain = before ++ [last] ∧ last ∈ before

theorem Underway.circle (underway : Underway fs chain path) (again : path ∈ chain) :
    Circle fs (chain.headD path) (chain ++ [path]) := by
  refine ⟨?_, underway.walk, chain, path, rfl, again⟩
  cases chain <;> rfl

/-- With enough fuel a circle is reported only where there is one. -/
theorem circle_of_loadLayer {circle : List String} (underway : Underway fs chain path)
    (enough : FileSystem.pathBound ≤ chain.length + fuel)
    (failed : loadLayer fs fuel chain path = .error (.circular circle)) :
    Circle fs (chain.headD path) circle := by
  induction fuel generalizing chain path with
  | zero =>
    by_cases again : path ∈ chain
    · cases failed
      exact underway.circle again
    · have := underway.length_lt again
      omega
  | succ fuel ih =>
    by_cases again : path ∈ chain
    · rw [loadLayer_of_mem again] at failed
      cases failed
      exact underway.circle again
    · rcases failed_at again failed with ⟨-, other⟩ | ⟨base, ext, failed⟩
      · exact absurd rfl (other circle)
      · have first : (chain ++ [path]).headD base = chain.headD path := by cases chain <;> rfl
        rw [← first]
        refine ih (underway.next again ext) ?_ failed
        rw [List.length_append, List.length_singleton]
        omega

theorem Circle.reachesCycle (circle : Circle fs path chain) : ReachesCycle (Extends fs) path := by
  obtain ⟨before, last, rfl, again⟩ := circle.returns
  have first : path ∈ before := by
    have starts := circle.starts
    rw [List.head?_append_of_ne_nil _ (List.ne_nil_of_mem again)] at starts
    exact List.mem_of_mem_head? starts
  exact ⟨last, (transGen_of_isChain circle.walk first).to_reflTransGen, transGen_of_isChain circle.walk again⟩

/-- Files that can all be read and do not lead round are loaded. -/
theorem loaded_of_not_reachesCycle (decodes : ∀ file, ReflTransGen (Extends fs) path file → Decodes fs file)
    (acyclic : ¬ReachesCycle (Extends fs) path) : ∃ result, loadLayer fs FileSystem.pathBound [] path = .ok result := by
  cases loaded : loadLayer fs FileSystem.pathBound [] path with
  | ok result => exact ⟨result, rfl⟩
  | error e =>
    exfalso
    rcases of_loadLayer_eq_error loaded with ⟨circle, rfl⟩ | ⟨file, reached, broken⟩
    · exact acyclic (circle_of_loadLayer (Underway.start fs path) (by simp) loaded).reachesCycle
    · exact broken (decodes file reached)

end
end ScriptLoader.Project
