import ScriptLoader.Proofs.PlacedTrees

/-!
Names that lead somewhere. What they come to in a tree they come to in every tree that has all of its entries,
with more links as well as with fewer, and by paths without links unless the system takes one of these paths
for too long.
-/

set_option autoImplicit false
namespace ScriptLoader

namespace FileTree

/-- A name that is looked up and not worked off by itself. -/
structure Plain (name : String) : Prop where
  something : ¬ (name = "" ∨ name = ".")
  not_up : name ≠ ".."
  short : ¬ maxNameSize < Text.Utf8.size name

theorem Usable.plain {name : String} (usable : Usable name) : Plain name :=
  ⟨by simp [usable.some_text, usable.not_here], usable.not_up, Nat.not_lt.mpr usable.short⟩

/-- The steps by which names lead from one place to another. At a link `jump` goes on. -/
inductive Leads (tree : FileTree) (jump : Location → List String → Except FileProblem Location) :
    Location → List String → Location → Prop where
  | arrived {here} : Leads tree jump here [] here
  | stays {here name rest location} : name = "" ∨ name = "." → Leads tree jump here rest location →
      Leads tree jump here (name :: rest) location
  | up {here rest location} : Leads tree jump here.tail rest location → Leads tree jump here (".." :: rest) location
  | down {here name rest location} : Plain name → tree.entry? (name :: here) = some .directory →
      Leads tree jump (name :: here) rest location → Leads tree jump here (name :: rest) location
  | file {here name content} : Plain name → tree.entry? (name :: here) = some (.file content) →
      Leads tree jump here [name] (name :: here)
  | link {here name rest target location} : Plain name → tree.entry? (name :: here) = some (.link target) →
      jump (if Path.isAbs target then [] else here) (Text.pieces target '/' ++ rest) = .ok location →
      Leads tree jump here (name :: rest) location

section
variable {tree : FileTree} {jump : Location → List String → Except FileProblem Location} {here location : Location}
  {name : String} {names : List String}

theorem followNames_plain (plain : Plain name) (here : Location) (rest : List String) :
    tree.followNames jump here (name :: rest) =
      match tree.entry? (name :: here) with
      | none => .error .notFound
      | some .directory => tree.followNames jump (name :: here) rest
      | some (.file _) => if rest.isEmpty then .ok (name :: here) else .error .notDirectory
      | some (.link target) => jump (if Path.isAbs target then [] else here) (Text.pieces target '/' ++ rest) := by
  rewrite [followNames, if_neg plain.something, if_neg plain.not_up, if_neg plain.short]
  rfl

theorem leads_of_followNames (found : tree.followNames jump here names = .ok location) :
    Leads tree jump here names location := by
  induction names generalizing here with
  | nil =>
    cases found
    exact .arrived
  | cons name rest ih =>
    by_cases nothing : name = "" ∨ name = "."
    · rw [followNames, if_pos nothing] at found
      exact .stays nothing (ih found)
    · by_cases up : name = ".."
      · subst up
        rw [followNames, if_neg nothing, if_pos rfl] at found
        exact .up (ih found)
      · by_cases long : maxNameSize < Text.Utf8.size name
        · rw [followNames, if_neg nothing, if_neg up, if_pos long] at found
          cases found
        · have plain : Plain name := ⟨nothing, up, long⟩
          rw [followNames_plain plain] at found
          cases held : tree.entry? (name :: here) with
          | none => simp [held] at found
          | some entry =>
            rw [held] at found
            cases entry with
            | directory => exact .down plain held (ih found)
            | link target => exact .link plain held found
            | file content =>
              cases rest with
              | nil =>
                cases found
                exact .file plain held
              | cons => cases found

theorem followNames_of_leads (leads : Leads tree jump here names location) :
    tree.followNames jump here names = .ok location := by
  induction leads with
  | arrived => rfl
  | stays nothing _ ih =>
    rw [followNames, if_pos nothing]
    exact ih
  | up _ ih => exact ih
  | down plain held _ ih =>
    rw [followNames_plain plain, held]
    exact ih
  | file plain held =>
    rw [followNames_plain plain, held]
    rfl
  | link plain held led =>
    rw [followNames_plain plain, held]
    exact led

end

/-! ## Larger trees -/

def Within (tree other : FileTree) : Prop :=
  ∀ location entry, tree.entry? location = some entry → other.entry? location = some entry

theorem Within.refl (tree : FileTree) : tree.Within tree := fun _ _ held => held

theorem within_insert {tree : FileTree} {place : Location} (free : tree.entry? place = none) (entry : Entry) :
    tree.Within (tree.insert place entry) := by
  intro location held found
  cases location with
  | nil => exact found
  | cons name above =>
    have differs : name :: above ≠ place := by
      rintro rfl
      rw [free] at found
      cases found
    have apart : (name :: above == place) = false := beq_false_of_ne differs
    have kept : (tree.entries.filter fun item => item.1 != place).lookup (name :: above) =
        tree.entries.lookup (name :: above) := by
      induction tree.entries with
      | nil => rfl
      | cons item rest ih =>
        obtain ⟨location, other⟩ := item
        by_cases same : location = place
        · have passed : (name :: above == location) = false := same ▸ apart
          rw [List.filter_cons_of_neg (by simp [same]), ih, List.lookup_cons, passed]
        · rw [List.filter_cons_of_pos (by simpa using same), List.lookup_cons, List.lookup_cons, ih]
    have inserted : FileTree.entry? (tree.insert place entry) (name :: above) =
        (tree.entries.filter fun item => item.1 != place).lookup (name :: above) := by
      rw [insert, entry?, List.lookup_cons, apart]
      exact fun same => by cases same
    rw [inserted, kept]
    exact found

variable {tree other : FileTree} {here location : Location} {names : List String}

theorem Leads.mono {jump jump' : Location → List String → Except FileProblem Location} (within : tree.Within other)
    (jumps : ∀ here names location, jump here names = .ok location → jump' here names = .ok location)
    (leads : Leads tree jump here names location) : Leads other jump' here names location := by
  induction leads with
  | arrived => exact .arrived
  | stays nothing _ ih => exact .stays nothing ih
  | up _ ih => exact .up ih
  | down plain held _ ih => exact .down plain (within _ _ held) ih
  | file plain held => exact .file plain (within _ _ held)
  | link plain held led => exact .link plain (within _ _ held) (jumps _ _ _ led)

/-- What names lead to in a tree they lead to in a larger one, with no fewer links. -/
theorem follow_mono (within : tree.Within other) {links more : Nat} (no_fewer : links ≤ more)
    (found : tree.follow links here names = .ok location) : other.follow more here names = .ok location := by
  -- The induction is on the links that are left. Between two links the names decide, and there `Leads.mono` applies.
  induction links generalizing more here names location with
  | zero =>
    obtain ⟨jump, same⟩ := other.follow_eq_followNames more
    rw [same]
    exact followNames_of_leads ((leads_of_followNames found).mono within fun _ _ _ stuck => by cases stuck)
  | succ links ih =>
    obtain ⟨more, rfl⟩ : ∃ n, more = n + 1 := ⟨more - 1, by omega⟩
    exact followNames_of_leads ((leads_of_followNames found).mono within fun _ _ _ led => ih (by omega) led)

/-- Names that lead to a directory lead on to a file in it. -/
theorem Leads.on_to_file {jump : Location → List String → Except FileProblem Location}
    {directory : Location} {name : String}
    {content : List UInt8} (is_directory : tree.entry? directory = some .directory) (plain : Plain name)
    (held : tree.entry? (name :: directory) = some (.file content))
    (jumps : ∀ here names, jump here names = .ok directory → jump here (names ++ [name]) = .ok (name :: directory))
    (leads : Leads tree jump here names directory) : Leads tree jump here (names ++ [name]) (name :: directory) := by
  induction leads with
  | arrived => exact .file plain held
  | stays nothing _ ih => exact .stays nothing (ih is_directory held jumps)
  | up _ ih => exact .up (ih is_directory held jumps)
  | down plain' held' _ ih => exact .down plain' held' (ih is_directory held jumps)
  | file _ held' =>
    rw [is_directory] at held'
    cases held'
  | @link here _ rest target _ plain' held' led =>
    have further := jumps _ _ led
    rw [List.append_assoc] at further
    exact .link plain' held' further

theorem follow_on_to_file {links : Nat} {directory : Location} {name : String} {content : List UInt8}
    (is_directory : tree.entry? directory = some .directory) (plain : Plain name)
    (held : tree.entry? (name :: directory) = some (.file content))
    (found : tree.follow links here names = .ok directory) :
    tree.follow links here (names ++ [name]) = .ok (name :: directory) := by
  induction links generalizing here names with
  | zero =>
    exact followNames_of_leads
      ((leads_of_followNames found).on_to_file is_directory plain held fun _ _ stuck => by cases stuck)
  | succ links ih =>
    exact followNames_of_leads ((leads_of_followNames found).on_to_file is_directory plain held fun _ _ led => ih led)

end FileTree

namespace FileSystem
open FileTree (Within Leads Plain)

/-! ## Paths without links -/

section
variable {tree other : FileTree}
  {jump : List String → Location → List String → Except FileProblem Location} {here location : Location}
  {name : String} {names spelled : List String}

theorem resolveNames_plain (plain : Plain name) (spelled : List String) (here : Location) (rest : List String) :
    resolveNames tree jump spelled here (name :: rest) =
      match refusal? (Path.ofComponents true (name :: spelled).reverse) with
      | some problem => .error problem
      | none =>
        match tree.entry? (name :: here) with
        | none => .error .notFound
        | some .directory => resolveNames tree jump (name :: spelled) (name :: here) rest
        | some (.file _) => if rest.isEmpty then .ok (name :: here) else .error .notDirectory
        | some (.link target) =>
          if Path.isAbs target then jump [] [] (Text.pieces target '/' ++ rest)
          else jump spelled here (Text.pieces target '/' ++ rest) := by
  rewrite [resolveNames, if_neg plain.something, if_neg plain.not_up]
  cases refusal? (Path.ofComponents true (name :: spelled).reverse) with
  | some problem => rfl
  | none =>
    dsimp only
    rewrite [if_neg plain.short]
    rfl

/-- A problem with the text of a path and not with what it leads to. -/
def Refused (result : Except FileProblem Location) : Prop := result = .error .nameTooLong ∨ result = .error .invalidName

theorem refused_of_refusal? {path : String} {problem : FileProblem} (refusal : refusal? path = some problem) :
    Refused (.error problem) := by
  unfold refusal? at refusal
  split at refusal
  · cases refusal
    exact .inr rfl
  · split at refusal
    · cases refusal
      exact .inl rfl
    · cases refusal

/-- What names lead to is found by paths without links, unless one of these is refused. -/
theorem resolveNames_of_leads {jump' : Location → List String → Except FileProblem Location}
    (jumps : ∀ spelled here names location, jump' here names = .ok location →
      jump spelled here names = .ok location ∨ Refused (jump spelled here names))
    (leads : Leads tree jump' here names location) (spelled : List String) :
    resolveNames tree jump spelled here names = .ok location ∨ Refused (resolveNames tree jump spelled here names) := by
  induction leads generalizing spelled with
  | arrived => exact .inl rfl
  | stays nothing _ ih =>
    rw [resolveNames, if_pos nothing]
    exact ih spelled
  | up _ ih => exact ih (stepUp spelled)
  | down plain held _ ih =>
    rw [resolveNames_plain plain]
    split
    · exact .inr (refused_of_refusal? ‹_›)
    · rw [held]
      exact ih _
  | file plain held =>
    rw [resolveNames_plain plain]
    split
    · exact .inr (refused_of_refusal? ‹_›)
    · rw [held]
      exact .inl rfl
  | link plain held led =>
    rw [resolveNames_plain plain]
    split
    · exact .inr (refused_of_refusal? ‹_›)
    · rw [held]
      dsimp only
      split at led
      · rw [if_pos ‹_›]
        exact jumps _ _ _ _ led
      · rw [if_neg ‹_›]
        exact jumps _ _ _ _ led

theorem resolveFrom_of_follow {links more : Nat} (no_fewer : links ≤ more)
    (found : tree.follow links here names = .ok location) (spelled : List String) :
    resolveFrom tree more spelled here names = .ok location ∨ Refused (resolveFrom tree more spelled here names) := by
  induction links generalizing more here names location spelled with
  | zero =>
    obtain ⟨jump, same⟩ := resolveFrom_eq_resolveNames tree more
    rw [same]
    exact resolveNames_of_leads (fun _ _ _ _ stuck => by cases stuck) (FileTree.leads_of_followNames found) spelled
  | succ links ih =>
    obtain ⟨more, rfl⟩ : ∃ n, more = n + 1 := ⟨more - 1, by omega⟩
    exact resolveNames_of_leads (fun _ _ _ _ led => ih (by omega) led _) (FileTree.leads_of_followNames found) spelled

/-- Where names lead somewhere, it does not count what else a larger tree has. -/
theorem resolveNames_within (within : tree.Within other)
    {jump' : List String → Location → List String → Except FileProblem Location}
    {jump₀ : Location → List String → Except FileProblem Location}
    (jumps : ∀ spelled here names location, jump₀ here names = .ok location →
    jump' spelled here names = jump spelled here names)
    (leads : Leads tree jump₀ here names location) (spelled : List String) :
    resolveNames other jump' spelled here names = resolveNames tree jump spelled here names := by
  induction leads generalizing spelled with
  | arrived => rfl
  | stays nothing _ ih =>
    rw [resolveNames, resolveNames, if_pos nothing, if_pos nothing]
    exact ih spelled
  | up _ ih => exact ih (stepUp spelled)
  | down plain held _ ih =>
    rw [resolveNames_plain plain, resolveNames_plain plain, held, within _ _ held]
    simp only [ih]
  | file plain held =>
    rw [resolveNames_plain plain, resolveNames_plain plain, held, within _ _ held]
  | @link here _ _ target _ plain held led =>
    rw [resolveNames_plain plain, resolveNames_plain plain, held, within _ _ held]
    by_cases rooted : Path.isAbs target = true
    · rw [if_pos rooted] at led
      simp only [if_pos rooted, jumps _ _ _ _ led]
    · rw [if_neg rooted] at led
      simp only [if_neg rooted, jumps _ _ _ _ led]

theorem resolveFrom_within (within : tree.Within other) {links more : Nat} (no_fewer : links ≤ more)
    (found : tree.follow links here names = .ok location) (spelled : List String) :
    resolveFrom other more spelled here names = resolveFrom tree more spelled here names := by
  induction links generalizing more here names location spelled with
  | zero =>
    cases more with
    | zero =>
      exact resolveNames_within within (fun _ _ _ _ _ => rfl) (FileTree.leads_of_followNames found) spelled
    | succ more =>
      exact resolveNames_within within (fun _ _ _ _ stuck => by cases stuck)
        (FileTree.leads_of_followNames found) spelled
  | succ links ih =>
    obtain ⟨more, rfl⟩ : ∃ n, more = n + 1 := ⟨more - 1, by omega⟩
    exact resolveNames_within within (fun spelled _ _ _ led => ih (by omega) led spelled)
      (FileTree.leads_of_followNames found) spelled

end

variable {fs : FileSystem} {path : String} {location : Location}

theorem follow_namesOf {links : Nat} (found : fs.locate links path = .ok location) :
    fs.tree.follow links [] (fs.namesOf path) = .ok location := by
  rw [locate] at found
  split at found
  · cases found
  · split at found
    · cases found
    · split at found
      · cases found
      · exact found

theorem eq_of_resolve {resolved : Location} (found : fs.tree.follow maxLinks [] (fs.namesOf path) = .ok location)
    (led : fs.resolve path = .ok resolved) : location = resolved := by
  have further := FileTree.follow_mono (Within.refl _) (by decide : maxLinks ≤ maxRealLinks) found
  rw [follow_of_resolve led] at further
  exact (Except.ok.inj further).symm

/-- A path that is opened leads where it leads name by name. -/
theorem locate_eq_resolve {resolved : Location} (found : fs.locate maxLinks path = .ok location)
    (led : fs.resolve path = .ok resolved) : location = resolved :=
  eq_of_resolve (follow_namesOf found) led

theorem list?_eq_some {items : List Listed} :
    fs.list? path = some items ↔ ∃ location, fs.locate maxLinks path = .ok location ∧
      fs.tree.entry? location = some .directory ∧ items = fs.tree.listing location := by
  unfold list?
  cases fs.locate maxLinks path with
  | error problem => simp
  | ok location =>
    by_cases directory : fs.tree.entry? location = some .directory
    · simp only [directory, if_true, Option.some.injEq, Except.ok.injEq]
      constructor
      · rintro rfl
        exact ⟨location, rfl, directory, rfl⟩
      · rintro ⟨_, rfl, -, rfl⟩
        rfl
    · simp [directory]

/-! ## Larger file systems -/

/-- Another file system has every entry of a file system in its place, and is seen from the same directory. -/
structure Grows (fs other : FileSystem) : Prop where
  within : fs.tree.Within other.tree
  cwd : other.cwd = fs.cwd

namespace Grows
variable {other : FileSystem} (grows : fs.Grows other)
include grows

theorem namesOf (path : String) : other.namesOf path = fs.namesOf path := by
  unfold FileSystem.namesOf
  rw [grows.cwd]

theorem abs (path : String) : other.abs path = fs.abs path := by
  rw [FileSystem.abs, FileSystem.abs, grows.cwd]

theorem locate {links : Nat} (found : fs.locate links path = .ok location) :
    other.locate links path = .ok location := by
  have followed := FileTree.follow_mono grows.within (Nat.le_refl links) (follow_namesOf found)
  rw [FileSystem.locate] at found ⊢
  split at found
  · cases found
  · rw [if_neg ‹_›]
    split at found
    · cases found
    · rw [if_neg ‹_›]
      split at found
      · cases found
      · rw [if_neg ‹_›, grows.cwd]
        exact followed

theorem resolve (found : fs.tree.follow maxLinks [] (fs.namesOf path) = .ok location) :
    other.resolve path = fs.resolve path := by
  rw [FileSystem.resolve, FileSystem.resolve, grows.namesOf]
  exact resolveFrom_within grows.within (by decide) found []

theorem realPath? (found : fs.tree.follow maxLinks [] (fs.namesOf path) = .ok location) :
    other.realPath? path = fs.realPath? path := by
  rw [FileSystem.realPath?, FileSystem.realPath?, grows.resolve found]

theorem canonical (found : fs.tree.follow maxLinks [] (fs.namesOf (fs.abs path)) = .ok location) :
    other.canonical path = fs.canonical path := by
  rw [FileSystem.canonical, FileSystem.canonical, grows.abs, grows.realPath? found]

theorem stat {entry : Entry} (found : fs.stat path = .ok entry) : other.stat path = .ok entry := by
  unfold FileSystem.stat at found ⊢
  cases located : fs.locate maxLinks path with
  | error problem =>
    rw [located] at found
    cases found
  | ok location =>
    rw [located] at found
    rw [grows.locate located]
    cases held : fs.tree.entry? location with
    | none => simp [held] at found
    | some entry =>
      simp only [held] at found
      simp only [grows.within _ _ held, found]

theorem isFile (file : fs.isFile path = true) : other.isFile path = true := by
  unfold FileSystem.isFile at file ⊢
  cases found : fs.stat path with
  | error problem => simp [found] at file
  | ok entry =>
    rw [found] at file
    rw [grows.stat found]
    exact file

theorem read {content : List UInt8} (found : fs.read path = .ok content) : other.read path = .ok content := by
  obtain ⟨location, located, held⟩ := read_eq_ok.mp found
  exact read_eq_ok.mpr ⟨location, grows.locate located, grows.within _ _ held⟩

end Grows

end FileSystem
end ScriptLoader
