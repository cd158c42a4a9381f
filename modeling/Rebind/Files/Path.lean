import Rebind.Text.Lines
/-!
# Paths

Paths as text, and the absolute steps that they lead through from a working folder.
-/
namespace Rebind.Path

def parts (p : String) : List String := Text.parts '/' p

/-- Whether a text can be a path at all.  The null character ends a path and so is in none. -/
def isPath (p : String) : Bool := !p.toList.contains '\x00'

def isAbsolute (p : String) : Bool := p.startsWith "/"

/-- The path without empty parts and without parts that stay where they are. -/
def tidy (p : String) : String :=
  let kept := (parts p).filter fun s => s != "" && s != "."
  let body := "/".intercalate kept
  if isAbsolute p then "/" ++ body else if body = "" then "." else body

/-- Follows one part from the steps walked so far, kept back to front. -/
def follow (walked : List String) (part : String) : List String :=
  if part = "" || part = "." then walked
  else if part = ".." then walked.drop 1
  else part :: walked

/-- The absolute steps of a path read from a working folder. -/
def resolve (folder : List String) (p : String) : List String :=
  let start := if isAbsolute p then [] else folder.reverse
  ((parts p).foldl follow start).reverse

def shown (steps : List String) : String := "/" ++ "/".intercalate steps

/-- The paths on the way along a path, itself last. -/
def alongTheWay (p : String) : List String :=
  let steps := parts p
  (List.range steps.length).map fun k => "/".intercalate (steps.take (k + 1))

/-- A folder and the folders above it, the nearest first. -/
def ancestors (steps : List String) : List (List String) :=
  (List.range (steps.length + 1)).map fun k => steps.take (steps.length - k)

end Rebind.Path
