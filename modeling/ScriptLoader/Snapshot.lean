import ScriptLoader.Fields
import ScriptLoader.FileTree
import ScriptLoader.Json.Access

/-!
A file system and an environment written down as JSON. A file is its text or its bytes in hexadecimal;
directories and links are objects.
-/

set_option autoImplicit false
namespace ScriptLoader.Snapshot
open Json.Access

def entry : Json → Entry
  | .string content => .file (Text.Utf8.encode content)
  | j =>
    if has j "hex" then .file (Text.bytesOfHex (str j "hex").toList)
    else if has j "link" then .link (str j "link")
    else .directory

def putAll (fs : FileSystem) (entries : List (String × Json)) : FileSystem :=
  (Fields.ofList entries).foldl (fun fs (path, j) => fs.put path (entry j)) fs

/-- The file system with all entries. Where no working directory is named it is `home`, which exists in any
case. A working directory is known by its path without links. -/
def fileSystem (home : String) (j : Json) : FileSystem :=
  let cwd := Path.abs "/" (if str j "cwd" = "" then home else str j "cwd")
  let fs : FileSystem := ⟨.empty, cwd, Path.isAbs_abs rfl _⟩
  let fs := (putAll (fs.makeDirectory home) (asMembers (get j "files"))).makeDirectory cwd
  { fs with cwd := fs.canonical cwd, rooted := fs.isAbs_canonical cwd }

def change? (fs : FileSystem) (j : Json) : Option FileSystem :=
  if has j "write" then some (fs.put (str j "write") (entry (get j "entry")))
  else if has j "remove" then some (fs.remove (str j "remove"))
  else none

def environment (j : Json) : Fields String :=
  Fields.ofList ((asMembers (get j "env")).map fun (name, value) => (name, asString value))

end ScriptLoader.Snapshot
