import ScriptLoader.Proofs.Project.Extending
import ScriptLoader.Proofs.PlainTrees

/-!
Circles of configuration files. A circle is noticed by the paths of the files that are being read, and one file has
many paths. Without links all paths of a file name the same directory, so that what the file extends does not depend on
the path under which it is read, and the paths go round where the files do.
-/

set_option autoImplicit false
namespace ScriptLoader.Project

open Relation ScriptLoader.Graph

/-- An absolute path, however it is written, leads to a file. -/
def Spells (fs : FileSystem) (path : String) (file : Location) : Prop :=
  Path.isAbs path = true ∧ fs.locate FileSystem.maxLinks path = .ok file

instance (fs : FileSystem) (path : String) (file : Location) : Decidable (Spells fs path file) :=
  inferInstanceAs (Decidable (_ ∧ _))

/-- Under some path, one configuration file has a specifier that stands for another file. -/
def ExtendsFile (fs : FileSystem) (file base : Location) : Prop :=
  ∃ path target, Spells fs path file ∧ Extends fs path target ∧ Spells fs target base

section
variable {fs : FileSystem} {path other base : String} {file : Location}

theorem readRaw_eq_ok {raw : RawConfig} :
    readRaw fs path = .ok raw ↔
      ∃ content value, fs.read path = .ok content ∧ Json.parse? .lenient (Text.Utf8.decode content) = some value ∧
        RawConfig.ofJson? value = some raw := by
  rw [readRaw]
  constructor
  · intro read
    split at read
    · cases read
    · rename_i content found
      split at read
      · cases read
      · rename_i value parsed
        split at read
        · cases read
        · cases read
          exact ⟨content, value, found, parsed, ‹_›⟩
  · rintro ⟨content, value, found, parsed, decoded⟩
    simp only [found, parsed, decoded]

theorem readExtends_eq_ok {raw : RawConfig} {specifiers : List String} :
    readExtends path raw = .ok specifiers ↔ extendsList raw.extending = .ok specifiers := by
  rw [readExtends]
  split <;> simp_all

/-- A file that can be read says the same under all its paths. -/
theorem Reads.respell {raw : RawConfig} {specifiers : List String} (spells : Spells fs path file)
    (spells' : Spells fs other file) (reads : Reads fs path raw specifiers) : Reads fs other raw specifiers := by
  obtain ⟨content, value, found, parsed, decoded⟩ := readRaw_eq_ok.mp reads.1
  obtain ⟨location, located, entry⟩ := FileSystem.read_eq_ok.mp found
  obtain rfl : file = location := Except.ok.inj (spells.2.symm.trans located)
  refine ⟨readRaw_eq_ok.mpr ⟨content, value, ?_, parsed, decoded⟩, readExtends_eq_ok.mpr (readExtends_eq_ok.mp reads.2)⟩
  exact FileSystem.read_eq_ok.mpr ⟨file, spells'.2, entry⟩

theorem Reads.entry {raw : RawConfig} {specifiers : List String} (spells : Spells fs path file)
    (reads : Reads fs path raw specifiers) : fs.tree.entry? file ≠ some .directory := by
  obtain ⟨content, value, found, -⟩ := readRaw_eq_ok.mp reads.1
  obtain ⟨location, located, entry⟩ := FileSystem.read_eq_ok.mp found
  obtain rfl : file = location := Except.ok.inj (spells.2.symm.trans located)
  simp [entry]

theorem Extends.respell (plain : fs.tree.WithoutLinks) (spells : Spells fs path file) (spells' : Spells fs other file)
    (ext : Extends fs path base) : Extends fs other base := by
  obtain ⟨raw, specifiers, reads, specifier, mem, resolved⟩ := ext
  have here := FileSystem.dir_of_locate plain spells.1 spells.2 (reads.entry spells)
  have there := FileSystem.dir_of_locate plain spells'.1 spells'.2 (reads.entry spells)
  refine ⟨raw, specifiers, reads.respell spells spells', specifier, mem, ?_⟩
  rw [there, ← here]
  exact resolved

/-- What a file extends is a file again. -/
theorem Extends.spells (spells : Spells fs path file) (ext : Extends fs path base) :
    ∃ target, ExtendsFile fs file target ∧ Spells fs base target := by
  obtain ⟨raw, specifiers, -, specifier, -, resolved⟩ := id ext
  have rooted : Path.isAbs base = true := isAbs_of_resolveExtends? (Path.isAbs_dir spells.1) resolved
  have leads : ∃ target, fs.locate FileSystem.maxLinks base = .ok target := by
    have found := isFile_of_resolveExtends? resolved
    cases located : fs.locate FileSystem.maxLinks base with
    | error problem => simp [FileSystem.isFile, FileSystem.stat, located] at found
    | ok target => exact ⟨target, rfl⟩
  obtain ⟨target, located⟩ := leads
  exact ⟨target, ⟨path, base, spells, ext, rooted, located⟩, rooted, located⟩

/-- The files go round exactly if the paths do. -/
theorem reachesCycle_files_iff (plain : fs.tree.WithoutLinks) (spells : Spells fs path file)
    (short : Text.Utf8.size path < FileSystem.maxPathSize) :
    ReachesCycle (ExtendsFile fs) file ↔ ReachesCycle (Extends fs) path := by
  constructor
  · intro cyclic
    -- Along the circle of files there is a way of any length, which the paths can go along with; but they are bounded.
    have chain : HasChain (Extends fs) FileSystem.pathBound path := by
      refine HasChain.simulate (fun file path => Spells fs path file) ?_ spells (cyclic.hasChain _)
      rintro file path spells next ⟨spelling, target, spells_spelling, ext, spells_target⟩
      exact ⟨target, ext.respell plain spells_spelling spells, spells_target⟩
    exact reachesCycle_of_hasChain (fun paths nodup short => FileSystem.length_le_pathBound nodup short)
      (fun path base _ ext => ext.size_base_lt) short chain
  · refine ReachesCycle.simulate (Spells fs) ?_ spells ?_
    · intro path file spells base ext
      exact ext.spells spells
    · intro path file file' spells spells'
      exact Except.ok.inj (spells.2.symm.trans spells'.2)

end

/-- Two configurations that extend each other by absolute paths that are not clean. -/
def mutualExtends : FileSystem :=
  ⟨⟨[(["p"], .directory),
    (["a.json", "p"], .file (Text.Utf8.encode "\x7b\"extends\": \"/p/../p/b.json\"\x7d")),
    (["b.json", "p"], .file (Text.Utf8.encode "\x7b\"extends\": [\"./none\", \"/p/./a\"]\x7d"))]⟩, "/p", by decide⟩

theorem bases_mutualExtends :
    bases? mutualExtends "/p/a.json" = some ["/p/../p/b.json"] ∧
      bases? mutualExtends "/p/../p/b.json" = some ["/p/./a.json"] ∧
      bases? mutualExtends "/p/./a.json" = some ["/p/../p/b.json"] := by
  decide +kernel

theorem decodes_mutualExtends {file : String} (reached : ReflTransGen (Extends mutualExtends) "/p/a.json" file) :
    Decodes mutualExtends file := by
  obtain ⟨first, second, third⟩ := bases_mutualExtends
  have closed : ∀ file ∈ ["/p/a.json", "/p/../p/b.json", "/p/./a.json"],
      ∃ bases, bases? mutualExtends file = some bases ∧
        ∀ base ∈ bases, base ∈ ["/p/a.json", "/p/../p/b.json", "/p/./a.json"] := by
    simp [first, second, third]
  exact decodes_of_reached closed List.mem_cons_self reached

/-- Without links, and where all that is extended can be read, reading a configuration ends by itself. It
fails because of a circle exactly if the files that extend each other go round, and the circle is one of them;
otherwise there is a configuration. -/
theorem parse_circular_iff_files_go_round (fs : FileSystem) (path : String) (plain : fs.tree.WithoutLinks)
    (decodes : ∀ file, ReflTransGen (Extends fs) (fs.abs path) file → Decodes fs file) :
    (∀ fuel, FileSystem.pathBound ≤ fuel →
      loadLayer fs fuel [] (fs.abs path) = loadLayer fs FileSystem.pathBound [] (fs.abs path)) ∧
    ∃ start, fs.locate FileSystem.maxLinks (fs.abs path) = .ok start ∧
      ((∃ circle, (parse fs path).value = .error (.circular circle)) ↔ ReachesCycle (ExtendsFile fs) start) ∧
      (∀ circle, (parse fs path).value = .error (.circular circle) → Circle fs (fs.abs path) circle) ∧
      (¬ReachesCycle (ExtendsFile fs) start → ∃ config, (parse fs path).value = .ok config) := by
  have underway := Underway.start fs (fs.abs path)
  have enough : FileSystem.pathBound ≤ ([] : List String).length + FileSystem.pathBound := by simp
  constructor
  · intro fuel more
    exact loadLayer_fuel underway (by simpa using more) enough
  · obtain ⟨raw, specifiers, reads⟩ := decodes (fs.abs path) .refl
    obtain ⟨content, value, found, -⟩ := readRaw_eq_ok.mp reads.1
    obtain ⟨start, located, -⟩ := FileSystem.read_eq_ok.mp found
    have cyclic_iff := reachesCycle_files_iff plain ⟨fs.isAbs_abs path, located⟩ (size_lt_of_readRaw reads.1)
    have circles : ∀ circle, (parse fs path).value = .error (.circular circle) → Circle fs (fs.abs path) circle :=
      fun circle failed => circle_of_loadLayer underway enough (parse_eq_error.mp failed)
    refine ⟨start, located, ?_, circles, ?_⟩
    · rw [cyclic_iff]
      constructor
      · rintro ⟨circle, failed⟩
        exact (circles circle failed).reachesCycle
      · intro cyclic
        cases loaded : loadLayer fs FileSystem.pathBound [] (fs.abs path) with
        | ok result => exact absurd cyclic (not_reachesCycle_of_loaded loaded)
        | error e =>
          rcases of_loadLayer_eq_error loaded with ⟨circle, rfl⟩ | ⟨file, reached, broken⟩
          · exact ⟨circle, parse_eq_error.mpr loaded⟩
          · exact absurd (decodes file reached) broken
    · rw [cyclic_iff]
      intro acyclic
      obtain ⟨⟨layer, reported⟩, loaded⟩ := loaded_of_not_reachesCycle decodes acyclic
      exact ⟨_, parse_of_loaded loaded⟩

/-- The circle is noticed although each of its files is met under another path than before. -/
theorem parse_mutualExtends :
    mutualExtends.tree.WithoutLinks ∧
      (∀ file, ReflTransGen (Extends mutualExtends) (mutualExtends.abs "a.json") file → Decodes mutualExtends file) ∧
      ReachesCycle (ExtendsFile mutualExtends) ["a.json", "p"] ∧
      ∃ circle, (parse mutualExtends "a.json").value = .error (.circular circle) := by
  have whole : mutualExtends.abs "a.json" = "/p/a.json" := by decide +kernel
  have plain : mutualExtends.tree.WithoutLinks := by decide
  have decodes : ∀ file, ReflTransGen (Extends mutualExtends) (mutualExtends.abs "a.json") file →
      Decodes mutualExtends file := fun file reached => decodes_mutualExtends (whole ▸ reached)
  obtain ⟨-, start, located, circular_iff, -⟩ := parse_circular_iff_files_go_round mutualExtends "a.json" plain decodes
  obtain rfl : start = ["a.json", "p"] := by
    have there : mutualExtends.locate FileSystem.maxLinks (mutualExtends.abs "a.json") = .ok ["a.json", "p"] := by
      decide +kernel
    exact Except.ok.inj (located.symm.trans there)
  have cyclic : ReachesCycle (ExtendsFile mutualExtends) ["a.json", "p"] := by
    have forth : ExtendsFile mutualExtends ["a.json", "p"] ["b.json", "p"] :=
      ⟨"/p/a.json", "/p/../p/b.json", by decide +kernel, by decide +kernel, by decide +kernel⟩
    have back : ExtendsFile mutualExtends ["b.json", "p"] ["a.json", "p"] :=
      ⟨"/p/../p/b.json", "/p/./a.json", by decide +kernel, by decide +kernel, by decide +kernel⟩
    exact ⟨_, .refl, .tail (.single forth) back⟩
  exact ⟨plain, decodes, cyclic, circular_iff.mpr cyclic⟩

end ScriptLoader.Project
