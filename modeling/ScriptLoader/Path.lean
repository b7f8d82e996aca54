import ScriptLoader.Text.Basic

/-!
Slash-separated paths, read as text alone. `clean` gives each path its one short form; the other
operations return clean paths when they are given clean ones.
-/

set_option autoImplicit false
namespace ScriptLoader.Path

def isAbs (p : String) : Bool := p.toList.head? == some '/'

/-- Adds a component to the components before it, innermost first: `..` takes one away, except at the root or
after another `..`. -/
def push (rooted : Bool) (above : List String) (component : String) : List String :=
  if component = "" ∨ component = "." then above
  else if component = ".." then
    match above with
    | [] => if rooted then [] else [".."]
    | last :: rest => if last = ".." then ".." :: last :: rest else rest
  else component :: above

def reduce (rooted : Bool) (components : List String) : List String :=
  (components.foldl (push rooted) []).reverse

def components (p : String) : List String := reduce (isAbs p) (Text.pieces p '/')

def ofComponents (rooted : Bool) (components : List String) : String :=
  if rooted then "/" ++ String.intercalate "/" components
  else if components.isEmpty then "."
  else String.intercalate "/" components

/-- The shortest path with the same meaning; `.` for the empty one. -/
def clean (p : String) : String := ofComponents (isAbs p) (components p)

def join (parts : List String) : String :=
  let parts := parts.filter (· ≠ "")
  if parts.isEmpty then "" else clean (String.intercalate "/" parts)

def abs (cwd p : String) : String := if isAbs p then clean p else join [cwd, p]

theorem isAbs_ofComponents (components : List String) : isAbs (ofComponents true components) = true := by
  simp [isAbs, ofComponents]

theorem isAbs_clean {p : String} (rooted : isAbs p = true) : isAbs (clean p) = true := by
  rw [clean, rooted]
  exact isAbs_ofComponents _

theorem isAbs_append {p : String} (rooted : isAbs p = true) (rest : String) : isAbs (p ++ rest) = true := by
  simp only [isAbs, beq_iff_eq, String.toList_append, List.head?_append] at rooted ⊢
  simp [rooted]

theorem isAbs_join {p : String} (rooted : isAbs p = true) (q : String) : isAbs (join [p, q]) = true := by
  have some_text : p ≠ "" := by
    rintro rfl
    simp [isAbs] at rooted
  by_cases blank : q = ""
  · simpa [join, some_text, blank] using isAbs_clean rooted
  · have whole : join [p, q] = clean (p ++ "/" ++ q) := by simp [join, some_text, blank]
    rw [whole]
    exact isAbs_clean (isAbs_append (isAbs_append rooted _) _)

theorem isAbs_abs {cwd : String} (rooted : isAbs cwd = true) (p : String) : isAbs (abs cwd p) = true := by
  unfold abs
  split
  · exact isAbs_clean ‹_›
  · exact isAbs_join rooted p

/-- The text up to and with the last slash, and the text after it. -/
def splitLast (p : String) : String × String :=
  let name := (p.toList.reverse.takeWhile (· ≠ '/')).reverse
  (String.ofList (p.toList.take (p.length - name.length)), String.ofList name)

def tails {α : Type} : List α → List (List α)
  | [] => [[]]
  | a :: rest => (a :: rest) :: tails rest

/-- A path and the directories above it, up to the root, the nearest first. -/
def ancestors (p : String) : List String :=
  (tails (components p).reverse).map fun names => ofComponents (isAbs p) names.reverse

def dir (p : String) : String := clean (splitLast p).1

/-- The last component; `.` for the empty path and `/` for one of slashes alone. -/
def base (p : String) : String :=
  if p = "" then "."
  else
    let trimmed := String.ofList (Text.trimEnd (· = '/') p.toList)
    if trimmed = "" then "/" else (splitLast trimmed).2

/-- The last component from its last dot on, or nothing when it has no dot. -/
def ext (p : String) : String :=
  let name := (splitLast p).2.toList
  if name.contains '.' then String.ofList ('.' :: (name.reverse.takeWhile (· ≠ '.')).reverse) else ""

def dropExt (p : String) : String := String.ofList (p.toList.take (p.length - (ext p).length))

def diverge : List String → List String → List String × List String
  | a :: as, b :: bs => if a = b then diverge as bs else (a :: as, b :: bs)
  | as, bs => (as, bs)

/-- The components of a clean target: the path `.` is one component of that name. -/
def targetComponents (p : String) : List String :=
  if components p = [] ∧ !isAbs p then ["."] else components p

/-- `target` as seen from `base`; `none` when one is rooted and the other not, or `base` goes up beyond the target. -/
def rel? (base target : String) : Option String :=
  if clean base = clean target then some "."
  else if isAbs base ≠ isAbs target then none
  else
    let (up, down) := diverge (components base) (targetComponents target)
    if up.head? = some ".." then none
    else some (String.intercalate "/" (up.map (fun _ => "..") ++ down))

end ScriptLoader.Path
