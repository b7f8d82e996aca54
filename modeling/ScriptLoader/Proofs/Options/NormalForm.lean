import ScriptLoader.Options.Sets
import ScriptLoader.Proofs.Options.Merged

/-!
The normal form of options. It settles what compilation to one script needs and leaves everything else as it
was, so that a second normalization has nothing left to settle but whether diagnostics of types count.
-/

set_option autoImplicit false
namespace ScriptLoader

attribute [ext] CompilerOptions

namespace CompilerOptions
variable {o : CompilerOptions}

theorem kinds_normalize_of_bare (bare : o.moduleKind = none ∧ o.resolution = none) (check : Bool) :
    (o.normalize check).moduleKind = some .node16 ∧ (o.normalize check).resolution = some .node16 := by
  simp [normalize, bare, defaultModule, defaultResolution]

theorem kinds_normalize_of_set (set : ¬ (o.moduleKind = none ∧ o.resolution = none)) (check : Bool) :
    (o.normalize check).moduleKind = o.moduleKind ∧ (o.normalize check).resolution = o.resolution := by
  have not_bare : (o.moduleKind.isNone && o.resolution.isNone) = false := by
    rw [Bool.eq_false_iff, ne_eq, Bool.and_eq_true, Option.isNone_iff_eq_none, Option.isNone_iff_eq_none]
    exact set
  simp [normalize, not_bare]

/-- A normal form has a module kind or a resolution, so that neither is filled in again. -/
theorem kinds_normalize_set (o : CompilerOptions) (check : Bool) :
    ¬ ((o.normalize check).moduleKind = none ∧ (o.normalize check).resolution = none) := by
  by_cases bare : o.moduleKind = none ∧ o.resolution = none
  · rw [(kinds_normalize_of_bare bare check).1]
    simp
  · obtain ⟨kind, resolution⟩ := kinds_normalize_of_set bare check
    rwa [kind, resolution]

def switchedOn : List Flag := [.suppressOutputPathCheck, .inlineSourceMap]

def switchedOff : List Flag := [.emitBOM, .emitDeclarationOnly, .declaration, .declarationMap, .noEmit, .sourceMap]

theorem flag_noCheck_normalize (o : CompilerOptions) (check : Bool) :
    (o.normalize check).flag .noCheck = if check then o.flag .noCheck else some true := by
  cases check <;> simp [normalize, forcedFlag]

theorem flag_normalize {f : Flag} (other : f ≠ .noCheck) (o : CompilerOptions) (check : Bool) :
    (o.normalize check).flag f = (forcedFlag f).or (o.flag f) := by
  simp [normalize, other]

theorem flag_normalize_of_on {f : Flag} (on : f ∈ switchedOn) (o : CompilerOptions) (check : Bool) :
    (o.normalize check).flag f = some true := by
  have forced : f ≠ .noCheck ∧ forcedFlag f = some true := by
    revert on
    cases f <;> decide
  rw [flag_normalize forced.1, forced.2, Option.some_or]

theorem flag_normalize_of_off {f : Flag} (off : f ∈ switchedOff) (o : CompilerOptions) (check : Bool) :
    (o.normalize check).flag f = some false := by
  have forced : f ≠ .noCheck ∧ forcedFlag f = some false := by
    revert off
    cases f <;> decide
  rw [flag_normalize forced.1, forced.2, Option.some_or]

theorem flag_normalize_of_free {f : Flag} (not_on : f ∉ switchedOn) (not_off : f ∉ switchedOff) (other : f ≠ .noCheck)
    (o : CompilerOptions) (check : Bool) : (o.normalize check).flag f = o.flag f := by
  have free : forcedFlag f = none := by
    revert not_on not_off
    cases f <;> decide
  rw [flag_normalize other, free, Option.none_or]

theorem path_normalize_of_free {p : PathOption} (not_file : p ≠ .outFile) (not_out : p ≠ .out) (o : CompilerOptions)
    (check : Bool) : (o.normalize check).path p = o.path p := by
  cases p with
  | outFile => exact absurd rfl not_file
  | out => exact absurd rfl not_out
  | outDir => rfl
  | rootDir => rfl

/-- Normalizing twice is normalizing once, where types count only if they did both times. -/
theorem normalize_normalize (o : CompilerOptions) (first second : Bool) :
    (o.normalize first).normalize second = o.normalize (first && second) := by
  obtain ⟨kind, resolution⟩ := kinds_normalize_of_set (kinds_normalize_set o first) second
  have target : ((o.normalize first).normalize second).target = (o.normalize first).target := by
    simp [normalize]
  have flag : ((o.normalize first).normalize second).flag = (o.normalize (first && second)).flag := by
    funext f
    -- Only `noCheck` looks at the arguments; a value that is forced is forced again to the same.
    by_cases other : f = .noCheck
    · subst other
      rw [flag_noCheck_normalize, flag_noCheck_normalize, flag_noCheck_normalize]
      cases first <;> cases second <;> rfl
    · rw [flag_normalize other, flag_normalize other, flag_normalize other, ← Option.or_assoc, Option.or_self]
  have path : ((o.normalize first).normalize second).path = (o.normalize first).path := by
    funext p
    cases p <;> rfl
  exact CompilerOptions.ext kind resolution target flag path rfl rfl

/-- The normal form of options, where options that are missing altogether count as options of which none is
set. Normalizing again only adds that types may not count. What one script needs is forced, module kind and
resolution are filled in together or not at all, the language level only where there is none, and everything
else is kept. The normal form of a copy is the same, and the options themselves stay as they are, wherever
they are held. -/
theorem normalize_settles_options (o : Option CompilerOptions) (check again : Bool) :
    let given := o.getD empty
    let normal := given.normalize check
    normal.normalize again = given.normalize (check && again) ∧ normal.normalize check = normal ∧
    (∀ f ∈ switchedOn, normal.flag f = some true) ∧ (∀ f ∈ switchedOff, normal.flag f = some false) ∧
    normal.path .outFile = none ∧ normal.path .out = none ∧
    (given.moduleKind = none ∧ given.resolution = none →
      normal.moduleKind = some .node16 ∧ normal.resolution = some .node16) ∧
    (¬ (given.moduleKind = none ∧ given.resolution = none) →
      normal.moduleKind = given.moduleKind ∧ normal.resolution = given.resolution) ∧
    (given.target = none → normal.target = some .es2023) ∧ (given.target ≠ none → normal.target = given.target) ∧
    normal.flag .noCheck = (if check then given.flag .noCheck else some true) ∧
    (∀ f, f ∉ switchedOn → f ∉ switchedOff → f ≠ .noCheck → normal.flag f = given.flag f) ∧
    (∀ p, p ≠ .outFile → p ≠ .out → normal.path p = given.path p) ∧ normal.jsx = given.jsx ∧
    (∀ name, normal.extra.get? name = given.extra.get? name) ∧
    (given.extra.Increasing → given.clone.normalize check = normal) ∧
    (∀ (sets : OptionSets) (source target : String), sets.get? source = o →
      (sets.normalize target source check).get? target = some normal ∧
      ∀ name, name ≠ target → (sets.normalize target source check).get? name = sets.get? name) := by
  intro given normal
  refine ⟨normalize_normalize given check again, ?_, fun f on => flag_normalize_of_on on given check,
    fun f off => flag_normalize_of_off off given check, rfl, rfl, fun bare => kinds_normalize_of_bare bare check,
    fun set => kinds_normalize_of_set set check, ?_, ?_, flag_noCheck_normalize given check,
    fun f not_on not_off other => flag_normalize_of_free not_on not_off other given check,
    fun p not_file not_out => path_normalize_of_free not_file not_out given check, rfl, fun _ => rfl,
    fun increasing => by rw [clone_eq_self increasing], ?_⟩
  · rw [normalize_normalize, Bool.and_self]
  · intro unset
    exact congrArg (Option.or · (some .es2023)) unset
  · intro set
    obtain ⟨target, found⟩ := Option.ne_none_iff_exists'.mp set
    exact (congrArg (Option.or · (some .es2023)) found).trans found.symm
  · intro sets source target held
    have form : (sets.held source).normalize check = normal := by rw [OptionSets.held, held]
    refine ⟨?_, fun name other => ?_⟩
    · rw [OptionSets.normalize, form, Fields.get?_insert, if_pos rfl]
    · rw [OptionSets.normalize, Fields.get?_insert, if_neg other]

end CompilerOptions
end ScriptLoader
