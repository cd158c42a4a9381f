import Rebind.Files.Path
import Rebind.Script.Expr
/-!
# File trees

The files that a grammar, a configuration or an input can be read from, and the working folder.  A
file holds text or the definitions of a grammar.
-/
namespace Rebind

/-- What a file holds. -/
inductive FileContent where
  | text (s : String)
  | grammar (definitions : List (String × Script.Expr))
  deriving Inhabited

/-- Folders and files under their absolute steps. -/
structure FileTree where
  folders : List (List String) := [[]]
  files : List (List String × FileContent) := []
  working : List String := []
  deriving Inhabited

/-- What a path leads to. -/
inductive FileEntry where
  | folder
  | file (content : FileContent)
  | absent
  /-- A part of the path that should be a folder is a file. -/
  | blocked
  deriving Inhabited

namespace FileTree

def isFolder (t : FileTree) (steps : List String) : Bool := t.folders.contains steps

def file? (t : FileTree) (steps : List String) : Option FileContent := t.files.lookup steps

def isFile (t : FileTree) (steps : List String) : Bool := (t.file? steps).isSome

/-- Adds a folder together with the folders above it. -/
def addFolder (t : FileTree) (steps : List String) : FileTree :=
  { t with folders := t.folders ++ (Path.ancestors steps).filter fun f => !t.isFolder f }

/-- Adds a file together with the folders above it. -/
def addFile (t : FileTree) (steps : List String) (content : FileContent) : FileTree :=
  let t := t.addFolder steps.dropLast
  { t with files := (steps, content) :: t.files.filter fun f => f.1 != steps }

/-- Walks the parts of a path from a folder.  Every part before the last has to be a folder. -/
def walk (t : FileTree) : List String → List String → FileEntry
  | steps, [] =>
    if t.isFolder steps then .folder
    else match t.file? steps with
      | some content => .file content
      | none => .absent
  | steps, part :: rest =>
    if t.isFolder steps then
      if part = ".." then t.walk steps.dropLast rest
      else if part = "" || part = "." then t.walk steps rest
      else t.walk (steps ++ [part]) rest
    else if t.isFile steps then .blocked
    else .absent

/-- What a path leads to from the working folder.  The empty path leads nowhere. -/
def find (t : FileTree) (p : String) : FileEntry :=
  if p = "" then .absent
  else t.walk (if Path.isAbsolute p then [] else t.working) (Path.parts p)

end FileTree

end Rebind
