import ScriptLoader.Proofs.Project.CanonicalMembers
import ScriptLoader.Proofs.RelativePaths

/-!
Canonical paths. A path is cleaned before its links are followed, and `..` takes a name away where a system
would go up from the place that the names before it lead to. As long as these names lead where they say, a
cleaned path leads where the path leads, and then its canonical form is the path of that place, on which no
link stands, unless the system refuses this path for its text.
-/

set_option autoImplicit false
namespace ScriptLoader

namespace FileTree

/-! ## Names that stay in place -/

/-- A list of names after some that stay in place are left out. -/
inductive Thinned : List String → List String → Prop where
  | nil : Thinned [] []
  | keep {name names others} : Thinned names others → Thinned (name :: names) (name :: others)
  | drop {name names others} : name = "" ∨ name = "." → Thinned names others → Thinned (name :: names) others

def moving (names : List String) : List String := names.filter fun name => ¬ (name = "" ∨ name = ".")

theorem moving_cons (name : String) (rest : List String) :
    moving (name :: rest) = if name = "" ∨ name = "." then moving rest else name :: moving rest := by
  rw [moving, List.filter_cons]
  by_cases nothing : name = "" ∨ name = "." <;> simp only [nothing, moving] <;> rfl

theorem thinned_moving (names : List String) : Thinned names (moving names) := by
  induction names with
  | nil => exact .nil
  | cons name rest ih =>
    rw [moving_cons]
    split
    · exact .drop ‹_› ih
    · exact .keep ih

theorem Thinned.append_left (front : List String) {names others : List String} (thinned : Thinned names others) :
    Thinned (front ++ names) (front ++ others) := by
  induction front with
  | nil => exact thinned
  | cons name front ih => exact .keep ih

section
variable {tree : FileTree} {jump jump' : Location → List String → Except FileProblem Location}
  {here location : Location}
  {names others : List String}

theorem Leads.thinned
    (jumps : ∀ here names others location, Thinned names others → jump here names = .ok location →
    jump' here others = .ok location)
    (leads : Leads tree jump here names location) (thinned : Thinned names others) :
    Leads tree jump' here others location := by
  induction leads generalizing others with
  | arrived =>
    cases thinned
    exact .arrived
  | stays nothing _ ih =>
    cases thinned with
    | keep thinned => exact .stays nothing (ih thinned)
    | drop _ thinned => exact ih thinned
  | up _ ih =>
    cases thinned with
    | keep thinned => exact .up (ih thinned)
    | drop nothing => simp at nothing
  | down plain held _ ih =>
    cases thinned with
    | keep thinned => exact .down plain held (ih thinned)
    | drop nothing => exact absurd nothing plain.something
  | file plain held =>
    -- Nothing comes after the name of a file, so that nothing is left out there.
    cases thinned with
    | keep thinned =>
      cases thinned
      exact .file plain held
    | drop nothing => exact absurd nothing plain.something
  | @link _ _ _ target _ plain held led =>
    cases thinned with
    | keep thinned => exact .link plain held (jumps _ _ _ _ (thinned.append_left (Text.pieces target '/')) led)
    | drop nothing => exact absurd nothing plain.something

theorem follow_thinned {links : Nat} (thinned : Thinned names others)
    (found : tree.follow links here names = .ok location) :
    tree.follow links here others = .ok location := by
  induction links generalizing here names others location with
  | zero =>
    exact followNames_of_leads
      ((leads_of_followNames found).thinned (fun _ _ _ _ _ stuck => by cases stuck) thinned)
  | succ links ih =>
    exact followNames_of_leads
      ((leads_of_followNames found).thinned (fun _ _ _ _ less led => ih less led) thinned)

/-! ## Names in two parts -/

/-- Where names lead somewhere, those before a part that is not empty lead to a place from which that part leads on. -/
theorem Leads.split {rest : List String} (some_rest : rest ≠ []) (Onward : Location → Prop)
    (jumps : ∀ here names, jump here (names ++ rest) = .ok location → ∃ middle, jump here names = .ok middle ∧
    Onward middle) (leads : Leads tree jump here (names ++ rest) location) :
    ∃ middle, Leads tree jump here names middle ∧ (Leads tree jump middle rest location ∨ Onward middle) := by
  induction names generalizing here with
  | nil => exact ⟨here, .arrived, .inl leads⟩
  | cons name names ih =>
    rw [List.cons_append] at leads
    generalize whole : names ++ rest = tail at leads
    cases leads with
    | stays nothing leads =>
      obtain ⟨middle, before, after⟩ := ih (whole ▸ leads)
      exact ⟨middle, .stays nothing before, after⟩
    | up leads =>
      obtain ⟨middle, before, after⟩ := ih (whole ▸ leads)
      exact ⟨middle, .up before, after⟩
    | down plain held leads =>
      obtain ⟨middle, before, after⟩ := ih (whole ▸ leads)
      exact ⟨middle, .down plain held before, after⟩
    | file => exact absurd (List.append_eq_nil_iff.mp whole).2 some_rest
    | link plain held led =>
      rw [← whole, ← List.append_assoc] at led
      obtain ⟨middle, before, after⟩ := jumps _ _ led
      exact ⟨middle, .link plain held before, .inr after⟩

/-- The part after leads on with the links that are left. -/
theorem follow_append {links : Nat} {rest : List String} (some_rest : rest ≠ [])
    (found : tree.follow links here (names ++ rest) = .ok location) :
    ∃ middle left, left ≤ links ∧ tree.follow links here names = .ok middle ∧
      tree.follow left middle rest = .ok location := by
  -- The induction is on the links. Up to the first one `Leads.split` parts the names, and from there on the
  -- links that are left do.
  induction links generalizing here names with
  | zero =>
    have parted := (leads_of_followNames found).split some_rest (fun _ => False) fun _ _ stuck => by cases stuck
    obtain ⟨middle, before, after | stuck⟩ := parted
    · exact ⟨middle, 0, Nat.le_refl 0, followNames_of_leads before, followNames_of_leads after⟩
    · exact stuck.elim
  | succ links ih =>
    have parted := (leads_of_followNames found).split some_rest
      (fun middle => ∃ left, left ≤ links ∧ tree.follow left middle rest = .ok location) fun here names led => by
        obtain ⟨middle, left, fewer, before, after⟩ := ih led
        exact ⟨middle, before, left, fewer, after⟩
    obtain ⟨middle, before, after | ⟨left, fewer, after⟩⟩ := parted
    · exact ⟨middle, links + 1, Nat.le_refl _, followNames_of_leads before, followNames_of_leads after⟩
    · exact ⟨middle, left, Nat.le_succ_of_le fewer, followNames_of_leads before, after⟩

end

/-! ## Going up by the names -/

/-- The place that names spell when `..` takes away the name before it. -/
def spelledBy (names : List String) : Location := names.foldl (Path.push true) []

theorem foldl_push_of_no_up {rest : List String} (no_up : ".." ∉ rest) (above : Location) :
    rest.foldl (Path.push true) above = (moving rest).reverse ++ above := by
  induction rest generalizing above with
  | nil => rfl
  | cons name rest ih =>
    rw [List.mem_cons, not_or] at no_up
    have pushed : Path.push true above name = if name = "" ∨ name = "." then above else name :: above := by
      rw [Path.push.eq_def, if_neg (Ne.symm no_up.1)]
    rw [List.foldl_cons, ih no_up.2, moving_cons, pushed]
    split <;> simp

/-- Wherever `..` stands, the names before it lead to the place that they spell. -/
def GoesUpAsSpelled (tree : FileTree) (links : Nat) (names : List String) : Prop :=
  ∀ before after, names = before ++ ".." :: after → tree.follow links [] before = .ok (spelledBy before)

section
variable {tree : FileTree} {links : Nat} {location : Location} {names : List String}

theorem Reached.walkable_tail (reached : Reached tree location) : Walkable tree location.tail := by
  cases reached with
  | directory walkable => exact walkable.tail
  | file walkable _ _ => exact walkable

theorem Reached.push_up (reached : Reached tree location) : Path.push true location ".." = location.tail := by
  cases location with
  | nil => rfl
  | cons last above =>
    have other : last ≠ ".." := (reached.usable last List.mem_cons_self).not_up
    simp [Path.push, other]

theorem exists_last_up (up : ".." ∈ names) : ∃ before after, names = before ++ ".." :: after ∧ ".." ∉ after := by
  obtain ⟨after, before, whole, absent⟩ := List.eq_append_cons_of_mem (List.mem_reverse.mpr up)
  refine ⟨before.reverse, after.reverse, ?_, fun mem => absent (List.mem_reverse.mp mem)⟩
  rw [← List.reverse_reverse names, whole]
  simp

/-- The place that names spell is found by its own names, when the names before each `..` lead where they say. -/
theorem follow_spelledBy (no_slash : ∀ name ∈ names, '/' ∉ name.toList) (as_spelled : tree.GoesUpAsSpelled links names)
    (found : tree.follow links [] names = .ok location) :
    tree.follow links [] (spelledBy names).reverse = .ok location := by
  by_cases up : ".." ∈ names
  · -- What comes after the last `..` goes on from a directory, to which its own names lead as well.
    obtain ⟨before, after, rfl, no_up⟩ := exists_last_up up
    have spelled := as_spelled before after rfl
    obtain ⟨middle, left, fewer, led, onward⟩ := follow_append (List.cons_ne_nil ".." after) found
    obtain rfl : spelledBy before = middle := Except.ok.inj (spelled.symm.trans led)
    have reached : Reached tree (spelledBy before) :=
      reached_of_follow .root (fun name mem => no_slash name (List.mem_append_left _ mem)) spelled
    have from_root : tree.follow links [] ((spelledBy before).tail.reverse ++ after) = .ok location := by
      obtain ⟨jump, same⟩ := tree.follow_eq_followNames links
      rw [same, reached.walkable_tail.followNames, ← same]
      obtain ⟨jump', same'⟩ := tree.follow_eq_followNames left
      rw [same', followNames, if_neg (by decide), if_pos rfl, ← same'] at onward
      exact follow_mono (.refl tree) fewer onward
    have names : spelledBy (before ++ ".." :: after) = (moving after).reverse ++ (spelledBy before).tail := by
      rw [spelledBy, List.foldl_append, List.foldl_cons, ← spelledBy, reached.push_up, foldl_push_of_no_up no_up]
    rw [names, List.reverse_append, List.reverse_reverse]
    exact follow_thinned ((thinned_moving after).append_left _) from_root
  · rw [spelledBy, foldl_push_of_no_up up, List.append_nil, List.reverse_reverse]
    exact follow_thinned (thinned_moving names) found

theorem proper_spelledBy (no_slash : ∀ name ∈ names, '/' ∉ name.toList) : Path.AllProper (spelledBy names) := by
  have settled : Path.Settled true (Path.reduce true names).reverse := Path.settled_reduce no_slash
  rw [Path.reduce, List.reverse_reverse] at settled
  exact Path.settled_iff_proper.mp settled

/-- No link stands at a place that names lead to, nor above it. -/
theorem Reached.entry?_ne_link (reached : Reached tree location) {above : Location}
    (part : above <:+ location) (target : String) :
    tree.entry? above ≠ some (.link target) := by
  have directories : ∀ {location : Location}, Walkable tree location → above <:+ location →
      tree.entry? above = some .directory := by
    intro location walkable part
    induction walkable with
    | root =>
      rw [List.suffix_nil.mp part]
      rfl
    | down _ _ directory ih =>
      rcases List.suffix_cons_iff.mp part with rfl | part
      · exact directory
      · exact ih part
  cases reached with
  | directory walkable =>
    rw [directories walkable part]
    exact fun same => by cases same
  | file walkable _ file =>
    rcases List.suffix_cons_iff.mp part with rfl | part
    · rw [file]
      exact fun same => by cases same
    · rw [directories walkable part]
      exact fun same => by cases same

end
end FileTree

namespace FileSystem
open FileTree (pathOf spelledBy GoesUpAsSpelled)
variable {fs : FileSystem} {path : String} {location : Location}

/-- A path is cleaned by its names, from the root on. -/
theorem abs_eq_pathOf (fs : FileSystem) (path : String) : fs.abs path = pathOf (spelledBy (fs.namesOf path)) := by
  by_cases rooted : Path.isAbs path = true
  · rw [abs, Path.abs, if_pos rooted, Path.clean, rooted, Path.components, rooted, namesOf_of_isAbs rooted]
    rfl
  · rw [abs, Path.abs, if_neg rooted, Path.join_eq fs.rooted, Path.components, fs.rooted, namesOf,
      if_neg rooted, spelledBy, List.foldl_append, Path.reduce, List.reverse_reverse]
    rfl

theorem follow_namesOf_abs (links : Nat) (fs : FileSystem) (path : String) :
    fs.tree.follow links [] (fs.namesOf (fs.abs path)) =
      fs.tree.follow links [] (spelledBy (fs.namesOf path)).reverse := by
  have proper : Path.AllProper (spelledBy (fs.namesOf path)).reverse :=
    fun name mem => FileTree.proper_spelledBy (fs.no_slash_namesOf path) name (List.mem_reverse.mp mem)
  rw [namesOf_of_isAbs (fs.isAbs_abs path), abs_eq_pathOf, pathOf]
  generalize (spelledBy (fs.namesOf path)).reverse = names at proper
  by_cases root : names = []
  · have pieces_root : Text.pieces (Path.ofComponents true []) '/' = ["", ""] := by decide
    rw [root, pieces_root, FileTree.follow_blank, FileTree.follow_blank]
  · rw [Path.pieces_ofComponents proper root, FileTree.follow_blank]

/-- Goes up on a path only from places that the names before spell. -/
def GoesUpByNames (fs : FileSystem) (path : String) : Prop := fs.tree.GoesUpAsSpelled maxLinks (fs.namesOf path)

/-- Cleaning such a path does not change where it leads. -/
theorem follow_abs (by_names : fs.GoesUpByNames path) (found : fs.locate maxLinks path = .ok location) :
    fs.tree.follow maxLinks [] (fs.namesOf (fs.abs path)) = .ok location := by
  rw [follow_namesOf_abs]
  exact FileTree.follow_spelledBy (fs.no_slash_namesOf path) by_names (follow_namesOf found)

end FileSystem

namespace Project
open FileSystem (maxLinks Refused)
open FileTree (pathOf)
variable {fs : FileSystem} {path : String} {location : Location}

theorem linkFree_of_reached (reached : FileTree.Reached fs.tree location) : LinkFree fs (pathOf location) := by
  intro above part target
  rw [pathOf, Path.components_ofComponents reached.proper_reverse, List.reverse_reverse] at part
  exact reached.entry?_ne_link part target

theorem canonical_of_resolve (found : fs.resolve (fs.abs path) = .ok location) :
    fs.canonical path = pathOf location ∧ LinkFree fs (fs.canonical path) := by
  have real : fs.canonical path = pathOf location := by
    rw [FileSystem.canonical, FileSystem.realPath?_of_resolve found]
    rfl
  exact ⟨real, real ▸ linkFree_of_reached (FileSystem.reached_of_resolve found)⟩

theorem canonical_eq_abs {problem : FileProblem} (failed : fs.resolve (fs.abs path) = .error problem) :
    fs.canonical path = fs.abs path := by
  rw [FileSystem.canonical, FileSystem.realPath?, failed]
  rfl

/-- The canonical form is the path of the place to which the cleaned path leads, unless the system refuses it. -/
theorem canonical_of_follow (found : fs.tree.follow maxLinks [] (fs.namesOf (fs.abs path)) = .ok location) :
    (fs.canonical path = pathOf location ∧ LinkFree fs (fs.canonical path)) ∨
      Refused (fs.resolve (fs.abs path)) ∧ fs.canonical path = fs.abs path := by
  rcases FileSystem.resolveFrom_of_follow (by decide : maxLinks ≤ FileSystem.maxRealLinks) found [] with real | refused
  · exact .inl (canonical_of_resolve real)
  · refine .inr ⟨refused, ?_⟩
    rcases refused with failed | failed <;> exact canonical_eq_abs failed

theorem exists_locate_of_stat {entry : Entry} (there : fs.stat path = .ok entry) :
    ∃ location, fs.locate maxLinks path = .ok location := by
  unfold FileSystem.stat at there
  cases found : fs.locate maxLinks path with
  | error problem =>
    rw [found] at there
    cases there
  | ok location => exact ⟨location, rfl⟩

/-- The canonical form of a path is an absolute path and its own canonical form. No link stands on it where
the cleaned path leads somewhere, unless the system refuses a path without links on the way, and then the path
is only cleaned. Where the path itself leads somewhere, and goes up only from places that the names before
spell, the canonical form is the path of that place. -/
theorem canonical_settles_paths (fs : FileSystem) (path : String) :
    (fs.canonical (fs.canonical path) = fs.canonical path ∧ Path.isAbs (fs.canonical path) = true) ∧
      (∀ entry, fs.stat (fs.abs path) = .ok entry →
        LinkFree fs (fs.canonical path) ∨ Refused (fs.resolve (fs.abs path)) ∧ fs.canonical path = fs.abs path) ∧
      ∀ entry, fs.stat path = .ok entry → fs.GoesUpByNames path →
        (∃ location, fs.locate maxLinks path = .ok location ∧ fs.canonical path = pathOf location ∧
        LinkFree fs (fs.canonical path)) ∨
        Refused (fs.resolve (fs.abs path)) ∧ fs.canonical path = fs.abs path := by
  refine ⟨⟨fs.canonical_canonical path, fs.isAbs_canonical path⟩, fun entry there => ?_, fun entry there by_names => ?_⟩
  · obtain ⟨location, found⟩ := exists_locate_of_stat there
    exact (canonical_of_follow (FileSystem.follow_namesOf found)).imp_left And.right
  · obtain ⟨location, found⟩ := exists_locate_of_stat there
    exact (canonical_of_follow (FileSystem.follow_abs by_names found)).imp_left fun real => ⟨location, found, real⟩

/-- A link to a directory beside it, and a file there. -/
def besideLink : FileSystem where
  tree := ⟨[(["z"], .directory), (["d", "z"], .directory), (["f", "d", "z"], .file []), (["l", "z"], .link "d")]⟩
  cwd := "/z"
  rooted := by decide

/-- The path goes up from a directory, and then through the link. -/
theorem canonical_besideLink : besideLink.stat "d/../l/f" = .ok (.file []) ∧ besideLink.GoesUpByNames "d/../l/f" ∧
    besideLink.canonical "d/../l/f" = "/z/d/f" ∧ LinkFree besideLink "/z/d/f" := by
  have there : besideLink.stat "d/../l/f" = .ok (.file []) ∧ besideLink.canonical "d/../l/f" = "/z/d/f" ∧
      besideLink.namesOf "d/../l/f" = ["", "z", "d", "..", "l", "f"] ∧
      besideLink.tree.follow maxLinks [] ["", "z", "d"] = .ok (FileTree.spelledBy ["", "z", "d"]) ∧
      besideLink.resolve (besideLink.abs "d/../l/f") = .ok ["f", "d", "z"] := by
    decide +kernel
  obtain ⟨exists_there, real, names, directory, resolved⟩ := there
  have by_names : besideLink.GoesUpByNames "d/../l/f" := by
    intro before after whole
    rw [names] at whole
    -- The fourth name is the only one that goes up.
    rcases before with _ | ⟨a, _ | ⟨b, _ | ⟨c, _ | ⟨d, rest⟩⟩⟩⟩
    · simp at whole
    · simp at whole
    · simp at whole
    · cases whole
      exact directory
    · have later : ".." ∈ ["l", "f"] := by
        injection whole with _ whole
        injection whole with _ whole
        injection whole with _ whole
        injection whole with _ whole
        exact whole ▸ List.mem_append_right rest List.mem_cons_self
      exact absurd later (by decide)
  obtain ⟨-, -, settled⟩ := canonical_settles_paths besideLink "d/../l/f"
  rcases settled _ exists_there by_names with ⟨_, -, -, free⟩ | ⟨refused, -⟩
  · exact ⟨exists_there, by_names, real, real ▸ free⟩
  · rw [resolved] at refused
    rcases refused with failed | failed <;> cases failed

/-- A link to a directory, with a file beside its target, and a link beside it that leads nowhere. -/
def detour : FileSystem where
  tree := ⟨[(["e"], .directory), (["l", "e"], .link "q/r"), (["x", "e"], .link "none"), (["q", "e"], .directory),
    (["r", "q", "e"], .directory), (["x", "q", "e"], .file [])]⟩
  cwd := "/e"
  rooted := by decide

/-- A link stays at the end of a path that goes up behind another link, and on one that leads too far down,
although both lead to files. -/
theorem canonical_keeps_links :
    (detour.isFile "/e/l/../x" = true ∧ detour.canonical "/e/l/../x" = "/e/x" ∧ ¬ LinkFree detour "/e/x") ∧
    farAway.isFile "/j/m/a.ts" = true ∧ farAway.canonical "/j/m/a.ts" = "/j/m/a.ts" ∧
    ¬ LinkFree farAway "/j/m/a.ts" := by
  constructor
  · have facts : detour.isFile "/e/l/../x" = true ∧ detour.canonical "/e/l/../x" = "/e/x" ∧
        (Path.components "/e/x").reverse = ["x", "e"] ∧ detour.tree.entry? ["x", "e"] = some (.link "none") := by
      decide +kernel
    obtain ⟨there, stays, names, link⟩ := facts
    exact ⟨there, stays, fun free => free ["x", "e"] (names ▸ List.suffix_refl _) "none" link⟩
  · obtain ⟨-, -, link, -⟩ := @entries_farTree longName
    refine ⟨leadsToFile_farAway.isFile (by decide +kernel),
      canonical_of_refused leadsToFile_farAway.tidy resolve_farAway, ?_⟩
    exact fun free => free ["m", "j"] (by decide +kernel) _ link

end Project
end ScriptLoader
