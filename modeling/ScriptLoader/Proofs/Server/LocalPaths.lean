import ScriptLoader.Proofs.FileUrls
import ScriptLoader.Proofs.RelativePaths
import ScriptLoader.Proofs.WellFormedText
import ScriptLoader.Server.Basic

/-!
Paths that stay inside the served directory. A path of a request is accepted when its names lead downwards,
and then it is the path of its file as seen from the root. What the server answers is settled by the files
inside the root: what lies elsewhere is never asked for.
-/

set_option autoImplicit false
namespace ScriptLoader

namespace Path

theorem ofComponents_relative {names : List String} (some_name : names ≠ []) :
    ofComponents false names = String.intercalate "/" names := by
  simp [ofComponents, some_name]

theorem clean_of_isAbs {p : String} (rooted : isAbs p = true) : clean p = ofComponents true (components p) := by
  rw [clean, rooted]

theorem diverge_append (common up down : List String) : diverge (common ++ up) (common ++ down) = diverge up down := by
  induction common with
  | nil => rfl
  | cons name rest ih => rw [List.cons_append, List.cons_append, diverge, if_pos rfl, ih]

theorem exists_common (names other : List String) :
    ∃ common, names = common ++ (diverge names other).1 ∧ other = common ++ (diverge names other).2 := by
  fun_induction diverge names other with
  | case1 rest name rest' ih =>
    obtain ⟨common, first, second⟩ := ih
    exact ⟨name :: common, congrArg (name :: ·) first, congrArg (name :: ·) second⟩
  | case2 => exact ⟨[], rfl, rfl⟩
  | case3 => exact ⟨[], rfl, rfl⟩

section
variable {root : String} (rooted : isAbs root = true) {names : List String} (proper : AllProper names)
include rooted proper

theorem proper_inside : AllProper (components root ++ names) :=
  List.forall_mem_append.mpr ⟨proper_of_mem_components rooted, proper⟩

theorem join_relative : join [root, ofComponents false names] = ofComponents true (components root ++ names) := by
  rw [join_eq rooted]
  by_cases none_left : names = []
  · subst none_left
    simp [ofComponents, Text.pieces, Text.split, push]
  · rw [pieces_relative proper none_left, foldl_push_of_settled]
    · simp
    · rw [← List.reverse_append]
      exact settled_of_proper true fun name mem => proper_inside rooted proper name (List.mem_reverse.mp mem)

theorem rel?_inside : rel? root (ofComponents true (components root ++ names)) = some (ofComponents false names) := by
  have inside := proper_inside rooted proper
  have target : targetComponents (ofComponents true (components root ++ names)) = components root ++ names := by
    simp [targetComponents, isAbs_ofComponents, components_ofComponents inside]
  rw [rel?, clean_of_isAbs rooted, clean_ofComponents inside, target]
  by_cases none_left : names = []
  · rw [none_left, List.append_nil, if_pos rfl]
    rfl
  · -- The target goes on where the root ends, so that nothing is left of the root and no step leads up.
    have other : ofComponents true (components root) ≠ ofComponents true (components root ++ names) := fun same =>
      none_left (List.self_eq_append_right.mp (ofComponents_injective (proper_of_mem_components rooted) inside same))
    have parted : diverge (components root) (components root ++ names) = ([], names) := by
      conv_lhs => rw [← List.append_nil (components root), List.append_assoc]
      exact diverge_append _ _ _
    rw [if_neg other, if_neg (by simp [rooted, isAbs_ofComponents]), parted, ofComponents_relative none_left]
    rfl

end
end Path

namespace Server
open Text.Utf8 ScriptLoader.Path

/-- The path of a file that lies below a directory, by the names that lead to it; the directory itself without any. -/
def below (root : String) (names : List String) : String :=
  if names = [] then root
  else String.ofList ((if root = "/" then [] else root.toList) ++ names.flatMap ('/' :: ·.toList))

/-- A file is the root or lies below it, by names that stand for themselves. -/
def Inside (root file : String) : Prop := ∃ names, AllProper names ∧ file = below root names

theorem below_eq {root : String} (rooted : isAbs root = true) (settled : clean root = root) (names : List String) :
    below root names = ofComponents true (components root ++ names) := by
  have whole := eq_ofComponents_of_clean rooted settled
  unfold below
  by_cases none_left : names = []
  · rw [if_pos none_left, none_left, List.append_nil, ← whole]
  · apply String.toList_inj.mp
    rw [if_neg none_left, String.toList_ofList, toList_ofComponents (List.append_ne_nil_of_right_ne_nil _ none_left),
      List.flatMap_append]
    congr 1
    by_cases top : components root = []
    · have at_top : root = "/" := by
        rw [whole, top]
        rfl
      rw [if_pos at_top, top, List.flatMap_nil]
    · have not_top : root ≠ "/" := by
        rintro rfl
        exact top (by decide)
      rw [if_neg not_top, ← toList_ofComponents top, ← whole]

theorem Inside.abs_eq {root file : String} (rooted : isAbs root = true) (settled : clean root = root)
    (inside : Inside root file) (fs : FileSystem) : fs.abs file = file := by
  obtain ⟨names, proper, rfl⟩ := inside
  have same : clean (ofComponents true (components root ++ names)) = _ :=
    clean_ofComponents (proper_inside rooted proper)
  rw [below_eq rooted settled, ← same]
  exact abs_clean (isAbs_ofComponents _)

theorem isDownward_relative {names : List String} (proper : AllProper names) :
    isDownward (ofComponents false names) = true := by
  by_cases none_left : names = []
  · rw [none_left]
    rfl
  · have plain : names.all isPlainComponent = true := List.all_eq_true.mpr fun name mem => by
      simp [isPlainComponent, (proper name mem).some_text, (proper name mem).not_here, (proper name mem).not_up]
    rw [isDownward, pieces_relative proper none_left, plain, Bool.or_true]

theorem relative_of_isDownward {path : String} (down : isDownward path = true) :
    ∃ names, AllProper names ∧ path = ofComponents false names := by
  rcases Bool.or_eq_true_iff.mp down with here | plain
  · exact ⟨[], fun _ mem => absurd mem List.not_mem_nil, of_decide_eq_true here⟩
  · have some_name : Text.pieces path '/' ≠ [] := by simp [Text.pieces, Text.split_ne_nil]
    refine ⟨Text.pieces path '/', fun name mem => ?_, by rw [ofComponents_relative some_name, Text.intercalate_pieces]⟩
    have plain := List.all_eq_true.mp plain name mem
    simp only [isPlainComponent, Bool.and_eq_true, decide_eq_true_eq] at plain
    exact ⟨plain.1.1, plain.1.2, plain.2, Text.not_mem_of_mem_pieces mem⟩

/-- The paths that are accepted, and the files that they name. -/
theorem localPath_eq_some_iff {root : String} (rooted : isAbs root = true) {path : List UInt8} {file : String} :
    localPath root path = some file ↔ ∃ names, AllProper names ∧ Readable (ofComponents false names) ∧
      isWellFormed (encode (ofComponents false names)) = true ∧ dropSlash path = encode (ofComponents false names) ∧
      file = ofComponents true (components root ++ names) := by
  unfold localPath decode?
  constructor
  · -- The bytes are read as the text whose names they write, so that writing this text gives the bytes back.
    intro found
    split at found
    · cases found
    next text decoded =>
      split at decoded
      next wellFormed =>
        obtain rfl := Option.some.inj decoded
        split at found
        next down =>
          obtain ⟨names, proper, relative⟩ := relative_of_isDownward down
          rw [relative, join_relative rooted proper] at found
          rw [← encode_decode (dropSlash path), relative] at wellFormed
          refine ⟨names, proper, relative ▸ readable_decode _, wellFormed, ?_, (Option.some.inj found).symm⟩
          rw [← relative, encode_decode]
        next => cases found
      next => cases decoded
  · rintro ⟨names, proper, readable, wellFormed, written, rfl⟩
    rw [written, if_pos wellFormed, readable, ← join_relative rooted proper]
    exact if_pos (isDownward_relative proper)

theorem rel?_of_localPath {root : String} (rooted : isAbs root = true) {path : List UInt8} {file : String}
    (found : localPath root path = some file) : (rel? root file).map encode = some (dropSlash path) := by
  obtain ⟨names, proper, -, -, written, rfl⟩ := (localPath_eq_some_iff rooted).mp found
  rw [rel?_inside rooted proper, Option.map_some, written]

theorem inside_of_localPath {root : String} (rooted : isAbs root = true) (settled : clean root = root)
    {path : List UInt8} {file : String} (found : localPath root path = some file) : Inside root file := by
  obtain ⟨names, proper, -, -, -, rfl⟩ := (localPath_eq_some_iff rooted).mp found
  exact ⟨names, proper, (below_eq rooted settled names).symm⟩

/-- A name that leads downwards, byte by byte. -/
def PlainName (name : List UInt8) : Prop := name ≠ [] ∧ name ≠ encode "." ∧ name ≠ encode ".."

instance (name : List UInt8) : Decidable (PlainName name) := inferInstanceAs (Decidable (_ ∧ _))

theorem isPlainComponent_decode {name : List UInt8} (plain : PlainName name) :
    isPlainComponent (decode name) = true := by
  obtain ⟨some_byte, not_here, not_up⟩ := plain
  have of_text : ∀ text, name ≠ encode text → decode name ≠ text :=
    fun text other same => other (by rw [← same, encode_decode])
  simp [isPlainComponent, of_text "" some_byte, of_text "." not_here, of_text ".." not_up]

theorem dropSlash_of_plain {path : List UInt8} (plain : ∀ name ∈ Text.split 0x2F path, PlainName name) :
    dropSlash path = path := by
  cases path with
  | nil => rfl
  | cons b rest =>
    have no_slash : b ≠ 0x2F := by
      rintro rfl
      exact (plain [] (by simp [Text.split])).1 rfl
    exact if_neg no_slash

theorem localPath_of_plain (root : String) {path : List UInt8} (valid : path.toByteArray.IsValidUTF8)
    (plain : ∀ name ∈ Text.split 0x2F path, PlainName name) : ∃ file, localPath root path = some file := by
  have down : isDownward (decode path) = true := by
    rw [isDownward, pieces_decode, List.all_map, Bool.or_eq_true_iff]
    exact .inr (List.all_eq_true.mpr fun name mem => isPlainComponent_decode (plain name mem))
  refine ⟨join [root, decode path], ?_⟩
  rw [localPath, dropSlash_of_plain plain, decode?, if_pos (isWellFormed_iff.mpr valid)]
  exact if_pos down

/-- Two chains in two settings that say the same of every file inside the root. -/
structure AgreeInside (root : String) (chain other : Chain) (here there : Setting) : Prop where
  cwd : here.fs.cwd = there.fs.cwd
  stat {file : String} : Inside root file → (here.fs.stat file).isOk = (there.fs.stat file).isOk
  load {file : String} (hint : Option ModuleFormat) : Inside root file →
    chain.load here ⟨FileUrl.ofBytes (encode file), hint⟩ = other.load there ⟨FileUrl.ofBytes (encode file), hint⟩
  resolve {file : String} (specifier : String) : Inside root file →
    chain.resolve here ⟨specifier, FileUrl.ofBytes (encode file), none⟩ =
      other.resolve there ⟨specifier, FileUrl.ofBytes (encode file), none⟩

section
variable {server : Server} {chain : Chain} {here there : Setting}
  (rooted : isAbs server.root = true) (settled : clean server.root = server.root)
  (agree : AgreeInside server.root server.chain chain here there)
include rooted settled agree

theorem sendModule_congr (path query : List UInt8) :
    server.sendModule here path query = { server with chain := chain }.sendModule there path query := by
  unfold sendModule
  dsimp only
  cases found : localPath server.root path with
  | none => rfl
  | some file =>
    have inside := inside_of_localPath rooted settled found
    cases ModuleFormat.ofName (decode (Query.value query "format")) with
    | error => rfl
    | ok hint =>
      dsimp only
      rw [FileUrl.ofPath, FileUrl.ofPath, inside.abs_eq rooted settled, inside.abs_eq rooted settled, agree.stat inside,
        agree.load hint inside, agree.cwd]

theorem resolve_congr (query : List UInt8) :
    server.resolve here query = { server with chain := chain }.resolve there query := by
  unfold resolve
  dsimp only
  cases found : localPath server.root (Query.value query "parent") with
  | none => rfl
  | some file =>
    have inside := inside_of_localPath rooted settled found
    dsimp only
    rw [FileUrl.ofPath, FileUrl.ofPath, inside.abs_eq rooted settled, inside.abs_eq rooted settled,
      agree.resolve _ inside, agree.cwd]

theorem answer_congr (metrics : Metrics) (request : Request) (target : Route) :
    server.answer metrics here request target = { server with chain := chain }.answer metrics there request target := by
  cases target with
  | notFound => rfl
  | methodNotAllowed => rfl
  | endpoint endpoint =>
    cases endpoint with
    | health => rfl
    | metrics => rfl
    | resolve => exact resolve_congr rooted settled agree _
    | module path => exact sendModule_congr rooted settled agree path _

end

/-- An accepted path is, after its slash, the path of a file inside the root as seen from there, so that
different paths name different files. Well-formed paths that lead downwards are all accepted. What is served
depends on nothing that lies outside. -/
theorem served_inside_root {root : String} (rooted : isAbs root = true) (settled : clean root = root) :
    (∀ path file, localPath root path = some file →
      Inside root file ∧ (rel? root file).map encode = some (dropSlash path)) ∧
    (∀ path other file, localPath root path = some file → localPath root other = some file →
      dropSlash path = dropSlash other) ∧
    (∀ path : List UInt8, path.toByteArray.IsValidUTF8 → (∀ name ∈ Text.split 0x2F path, PlainName name) →
      ∃ file, localPath root path = some file) ∧
    (∀ (server : Server) (chain : Chain) (here there : Setting), server.root = root →
      AgreeInside root server.chain chain here there → ∀ metrics request,
        server.serve metrics here request = { server with chain := chain }.serve metrics there request) := by
  refine ⟨fun path file found => ?_, fun path other file found found' => ?_, fun path => localPath_of_plain root, ?_⟩
  · exact ⟨inside_of_localPath rooted settled found, rel?_of_localPath rooted found⟩
  · exact Option.some.inj ((rel?_of_localPath rooted found).symm.trans (rel?_of_localPath rooted found'))
  · rintro server chain here there rfl agree metrics request
    unfold serve
    rw [answer_congr rooted settled agree]
    rfl

theorem served_inside_top : isAbs "/" = true ∧ clean "/" = "/" ∧
    ∃ file, localPath "/" (encode "lib/…/a.ts") = some file ∧ Inside "/" file ∧
      (rel? "/" file).map encode = some (encode "lib/…/a.ts") := by
  have rooted : isAbs "/" = true := by decide
  have settled : clean "/" = "/" := by decide
  obtain ⟨stays, -, accepts, -⟩ := served_inside_root rooted settled
  obtain ⟨file, found⟩ := accepts (encode "lib/…/a.ts") (by decide) (by decide)
  exact ⟨rooted, settled, file, found, stays _ file found⟩

end Server
end ScriptLoader
