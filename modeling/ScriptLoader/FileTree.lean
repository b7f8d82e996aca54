import ScriptLoader.Path
import ScriptLoader.Text.Order

/-!
File systems as values: directories, files and symbolic links. Paths are followed as an operating
system follows them, link by link, with a bound on the number of links.
-/

set_option autoImplicit false
namespace ScriptLoader

inductive FileProblem where
  | notFound
  | notDirectory
  | isDirectory
  | tooManyLinks
  | nameTooLong
  | invalidName
  deriving DecidableEq, Repr

def FileProblem.message : FileProblem → String
  | .notFound => "no such file or directory"
  | .notDirectory => "not a directory"
  | .isDirectory => "is a directory"
  | .tooManyLinks => "too many levels of symbolic links"
  | .nameTooLong => "file name too long"
  | .invalidName => "invalid argument"

structure FileError where
  operation : String
  path : String
  problem : FileProblem
  deriving DecidableEq, Repr

def FileError.message (e : FileError) : String := e.operation ++ " " ++ e.path ++ ": " ++ e.problem.message

inductive Entry where
  | file (content : List UInt8)
  | directory
  | link (target : String)
  deriving DecidableEq, Repr

/-- A place in the tree: the names that lead to it, the innermost first. The root is the empty list. -/
abbrev Location := List String

/-- Everything below the root. A listed location's parents are listed as directories. -/
structure FileTree where
  entries : List (Location × Entry)
  deriving Repr

namespace FileTree

def empty : FileTree := ⟨[]⟩

def entry? (tree : FileTree) : Location → Option Entry
  | [] => some .directory
  | location => tree.entries.lookup location

def pathOf (location : Location) : String := Path.ofComponents true location.reverse

def maxNameSize : Nat := 255

/-- Follows names from a directory on up to the first link. There `jump` goes on, with the names of the link's
target and those that are left. -/
def followNames (tree : FileTree) (jump : Location → List String → Except FileProblem Location) :
    Location → List String → Except FileProblem Location
  | here, [] => .ok here
  | here, name :: rest =>
    if name = "" ∨ name = "." then followNames tree jump here rest
    else if name = ".." then followNames tree jump here.tail rest
    else if maxNameSize < Text.Utf8.size name then .error .nameTooLong
    else match tree.entry? (name :: here) with
      | none => .error .notFound
      | some .directory => followNames tree jump (name :: here) rest
      | some (.file _) => if rest.isEmpty then .ok (name :: here) else .error .notDirectory
      | some (.link target) => jump (if Path.isAbs target then [] else here) (Text.pieces target '/' ++ rest)

/-- Follows names from a directory on. A link is replaced by the names of its target, at most `links` times. -/
def follow (tree : FileTree) : (links : Nat) → Location → List String → Except FileProblem Location
  | 0 => tree.followNames fun _ _ => .error .tooManyLinks
  | links + 1 => tree.followNames (follow tree links)

def names (tree : FileTree) (directory : Location) : List String :=
  Text.Utf8.inOrder (tree.entries.filterMap fun (location, _) =>
    match location with
    | name :: parent => if parent = directory then some name else none
    | [] => none)

def insert (tree : FileTree) (location : Location) (entry : Entry) : FileTree :=
  ⟨(location, entry) :: tree.entries.filter fun held => held.1 != location⟩

def remove (tree : FileTree) (location : Location) : FileTree :=
  ⟨tree.entries.filter fun held => !location.isSuffixOf held.1⟩

def directories (tree : FileTree) : List Location :=
  [] :: tree.entries.filterMap fun (location, entry) => if entry = .directory then some location else none

end FileTree

/-- A file tree seen from a working directory, which is given by an absolute path. -/
structure FileSystem where
  tree : FileTree
  cwd : String
  rooted : Path.isAbs cwd = true

namespace FileSystem

/-- A path has fewer bytes than this. -/
def maxPathSize : Nat := 4096

/-- More than there are texts of fewer than `maxPathSize` characters, and so more than there are paths. -/
@[irreducible] def pathBound : Nat := Nat.pow 0x110001 maxPathSize

def maxLinks : Nat := 40

/-- The most links that are followed to find a path without links. -/
def maxRealLinks : Nat := 255

def abs (fs : FileSystem) (path : String) : String := Path.abs fs.cwd path

theorem isAbs_abs (fs : FileSystem) (path : String) : Path.isAbs (fs.abs path) = true :=
  Path.isAbs_abs fs.rooted path

def locate (fs : FileSystem) (links : Nat) (path : String) : Except FileProblem Location :=
  if path.toList.contains '\x00' then .error .invalidName
  else if path = "" then .error .notFound
  else if maxPathSize ≤ Text.Utf8.size path then .error .nameTooLong
  else
    let names := Text.pieces path '/'
    fs.tree.follow links [] (if Path.isAbs path then names else Text.pieces fs.cwd '/' ++ names)

def stat (fs : FileSystem) (path : String) : Except FileError Entry :=
  match fs.locate maxLinks path with
  | .error problem => .error ⟨"stat", path, problem⟩
  | .ok location =>
    match fs.tree.entry? location with
    | some entry => .ok entry
    | none => .error ⟨"stat", path, .notFound⟩

def isFile (fs : FileSystem) (path : String) : Bool :=
  match fs.stat path with
  | .ok .directory => false
  | .ok _ => true
  | .error _ => false

def isDirectory (fs : FileSystem) (path : String) : Bool :=
  match fs.stat path with
  | .ok .directory => true
  | _ => false

def read (fs : FileSystem) (path : String) : Except FileError (List UInt8) :=
  match fs.locate maxLinks path with
  | .error problem => .error ⟨"open", path, problem⟩
  | .ok location =>
    match fs.tree.entry? location with
    | some (.file content) => .ok content
    | some .directory => .error ⟨"read", path, .isDirectory⟩
    | _ => .error ⟨"open", path, .notFound⟩

/-- Why the system takes no path of this text, whatever it may lead to. -/
def refusal? (path : String) : Option FileProblem :=
  if path.toList.contains '\x00' then some .invalidName
  else if maxPathSize ≤ Text.Utf8.size path then some .nameTooLong
  else none

/-- Goes up from a path that is spelled by names, the innermost first. The last name goes away, but `..` is
written behind it when it is the only one or `..` itself. -/
def stepUp : List String → List String
  | last :: above :: rest => if last = ".." then ".." :: last :: above :: rest else above :: rest
  | names => ".." :: names

/-- Follows names from a directory on up to the first link, as `FileTree.followNames` does. Each name is
looked up by a path, which `spelled` and the name spell from the root on. -/
def resolveNames (tree : FileTree) (jump : List String → Location → List String → Except FileProblem Location) :
    List String → Location → List String → Except FileProblem Location
  | _, here, [] => .ok here
  | spelled, here, name :: rest =>
    if name = "" ∨ name = "." then resolveNames tree jump spelled here rest
    else if name = ".." then resolveNames tree jump (stepUp spelled) here.tail rest
    else match refusal? (Path.ofComponents true (name :: spelled).reverse) with
      | some problem => .error problem
      | none =>
        if FileTree.maxNameSize < Text.Utf8.size name then .error .nameTooLong
        else match tree.entry? (name :: here) with
          | none => .error .notFound
          | some .directory => resolveNames tree jump (name :: spelled) (name :: here) rest
          | some (.file _) => if rest.isEmpty then .ok (name :: here) else .error .notDirectory
          | some (.link target) =>
            if Path.isAbs target then jump [] [] (Text.pieces target '/' ++ rest)
            else jump spelled here (Text.pieces target '/' ++ rest)

/-- Follows names from a directory on by paths without links. A link is replaced by the names of its target,
at most `links` times. -/
def resolveFrom (tree : FileTree) :
    (links : Nat) → List String → Location → List String → Except FileProblem Location
  | 0 => resolveNames tree fun _ _ _ => .error .tooManyLinks
  | links + 1 => resolveNames tree (resolveFrom tree links)

def namesOf (fs : FileSystem) (path : String) : List String :=
  if Path.isAbs path then Text.pieces path '/' else Text.pieces fs.cwd '/' ++ Text.pieces path '/'

/-- The place a path leads to, found name by name. So only paths without links, as they are spelled on the
way, must be short enough for the system. -/
def resolve (fs : FileSystem) (path : String) : Except FileProblem Location :=
  resolveFrom fs.tree maxRealLinks [] [] (fs.namesOf path)

def realPath? (fs : FileSystem) (path : String) : Option String :=
  match fs.resolve path with
  | .ok location => some (FileTree.pathOf location)
  | .error _ => none

/-- The absolute path without links; a path that leads nowhere is only cleaned. -/
def canonical (fs : FileSystem) (path : String) : String :=
  (fs.realPath? (fs.abs path)).getD (fs.abs path)

theorem isAbs_canonical (fs : FileSystem) (path : String) : Path.isAbs (fs.canonical path) = true := by
  unfold canonical realPath?
  split
  · exact Path.isAbs_ofComponents _
  · exact fs.isAbs_abs path

structure Listed where
  name : String
  entry : Entry

def list? (fs : FileSystem) (path : String) : Option (List Listed) :=
  match fs.locate maxLinks path with
  | .error _ => none
  | .ok location =>
    if fs.tree.entry? location = some .directory then
      some ((fs.tree.names location).filterMap fun name =>
        (fs.tree.entry? (name :: location)).map fun entry => ⟨name, entry⟩)
    else none

def ensureDirectories (tree : FileTree) : Location → List String → FileTree × Location
  | here, [] => (tree, here)
  | here, name :: rest =>
    if name = "" ∨ name = "." then ensureDirectories tree here rest
    else match tree.entry? (name :: here) with
      | none => ensureDirectories (tree.insert (name :: here) .directory) (name :: here) rest
      | some (.link _) =>
        match tree.follow maxLinks here [name] with
        | .ok location => ensureDirectories tree location rest
        | .error _ => ensureDirectories tree (name :: here) rest
      | some _ => ensureDirectories tree (name :: here) rest

def makeDirectory (fs : FileSystem) (path : String) : FileSystem :=
  { fs with tree := (ensureDirectories fs.tree [] (Path.components path)).1 }

/-- The place where a file of this path is or would be made: its directory must exist, and links at its end
are followed. -/
def placeFor (fs : FileSystem) : Nat → String → Except FileProblem Location
  | 0, _ => .error .tooManyLinks
  | links + 1, path =>
    match fs.locate maxLinks path with
    | .ok location => .ok location
    | .error .notFound =>
      match (Text.pieces path '/').reverse with
      | [] => .error .notFound
      | name :: above =>
        if name = "" then .error .isDirectory
        else match fs.locate maxLinks (String.intercalate "/" (above.reverse ++ ["."])) with
          | .error problem => .error problem
          | .ok directory =>
            match fs.tree.entry? (name :: directory) with
            | some (.link target) =>
              fs.placeFor links
                (if Path.isAbs target then target else FileTree.pathOf directory ++ "/" ++ target)
            | _ => .ok (name :: directory)
    | .error problem => .error problem

def create (fs : FileSystem) (path : String) (content : List UInt8) : Except FileError FileSystem :=
  match fs.placeFor (maxLinks + 1) path with
  | .error problem => .error ⟨"open", path, problem⟩
  | .ok location =>
    match fs.tree.entry? location with
    | some .directory => .error ⟨"open", path, .isDirectory⟩
    | _ => .ok { fs with tree := fs.tree.insert location (.file content) }

/-- Puts an entry at an absolute path in the place of what was there, and makes its parents as needed. A file
goes where links at the end of the path lead. -/
def put (fs : FileSystem) (path : String) (entry : Entry) : FileSystem :=
  match (Path.components path).reverse with
  | [] => fs
  | name :: parents =>
    let (tree, parent) := ensureDirectories fs.tree [] parents.reverse
    let ready := { fs with tree := tree }
    match entry with
    | .directory => fs.makeDirectory path
    | .file content =>
      match ready.create path content with
      | .ok written => written
      | .error _ => ready
    | .link _ => { fs with tree := (tree.remove (name :: parent)).insert (name :: parent) entry }

/-- Takes away what an absolute path leads to, with all below it; a link at its end is taken away itself. -/
def remove (fs : FileSystem) (path : String) : FileSystem :=
  match (Path.components path).reverse with
  | [] => fs
  | name :: parents =>
    match fs.tree.follow maxLinks [] parents.reverse with
    | .ok parent => { fs with tree := fs.tree.remove (name :: parent) }
    | .error _ => fs

end FileSystem
end ScriptLoader
