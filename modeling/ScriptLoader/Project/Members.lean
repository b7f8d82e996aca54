import ScriptLoader.FileTree
import ScriptLoader.Glob
import ScriptLoader.Log
import ScriptLoader.Run

/-! The source files that patterns select below a directory. -/

set_option autoImplicit false
namespace ScriptLoader.Project

def sourceExtensions : List String := [".ts", ".tsx", ".mts", ".cts"]

def hasSourceExtension (path : String) : Bool := sourceExtensions.contains (Path.ext path)

def absPattern (dir pattern : String) : String :=
  Path.clean (if Path.isAbs pattern then pattern else Path.join [dir, pattern])

/-- Whether a path, or a directory above it, matches one of the patterns. -/
def isExcluded (path : String) (excludes : List String) : Bool :=
  excludes.any fun pattern => Glob.isMatch pattern path || Glob.isMatch (pattern ++ "/**") path

/-- A pattern without wildcards and without an extension names a directory with all that is below it. -/
def widen (pattern : String) : String :=
  if pattern.toList.all (fun c => !Glob.isMeta c) && Path.ext pattern == "" then pattern ++ "/**/*"
  else pattern

inductive Sighting where
  | file (path : String)
  | dangling (path : String)
  deriving DecidableEq, Repr

/-- The state of a walk: the real directories seen so far and the sightings, in order. -/
structure Walk where
  visited : List String := []
  sightings : List Sighting := []

def Walk.saw (walk : Walk) (sighting : Sighting) : Walk :=
  { walk with sightings := walk.sightings ++ [sighting] }

/-- Whether an entry leads to a directory; `none` for a link that leads nowhere. -/
def leadsToDirectory? (fs : FileSystem) (path : String) : Entry → Option Bool
  | .directory => some true
  | .file _ => some false
  | .link _ =>
    match fs.stat path with
    | .ok .directory => some true
    | .ok _ => some false
    | .error _ => none

def isSelected (pattern : String) (excludes : List String) (path : String) : Bool :=
  hasSourceExtension path && !isExcluded path excludes && Glob.isMatch pattern path

/-- Walks a directory in order of the names. Links to directories are followed, and each real directory is
read once; the fuel bounds the depth, and the number of directories is enough. -/
def walkDirectory (fs : FileSystem) (pattern : String) (excludes : List String) : Nat → String → Walk → Walk
  | 0, _, walk => walk
  | fuel + 1, path, walk =>
    match fs.realPath? path with
    | none => walk
    | some real =>
      if walk.visited.contains real then walk
      else
        let walk := { walk with visited := real :: walk.visited }
        match fs.list? path with
        | none => walk
        | some listed =>
          listed.foldl (fun walk item =>
            let child := Path.join [path, item.name]
            match leadsToDirectory? fs child item.entry with
            | none => walk.saw (.dangling child)
            | some true =>
              if Text.startsWith item.name "." || isExcluded child excludes then walk
              else walkDirectory fs pattern excludes fuel child walk
            | some false => if isSelected pattern excludes child then walk.saw (.file child) else walk) walk

def sightings (fs : FileSystem) (pattern : String) (excludes : List String) : List Sighting :=
  let pattern := widen pattern
  (walkDirectory fs pattern excludes (fs.tree.directories.length + 1) (Glob.base pattern) {}).sightings

def Sighting.file? : Sighting → Option String
  | .file path => some path
  | .dangling _ => none

/-- The files that match an absolute pattern, by the paths on which they were reached. -/
def walkPattern (fs : FileSystem) (pattern : String) (excludes : List String) : List String :=
  (sightings fs pattern excludes).filterMap Sighting.file?

def Sighting.log? : Sighting → Option LogEntry
  | .file _ => none
  | .dangling path => some (.debug "project" "skipping dangling symlink" [("path", .text path)])

end ScriptLoader.Project
