import Rebind.Text.Ansi
import Rebind.Text.Slice
/-!
# The trace window

Every trace line starts with a stretch of the input around the current position, one visible symbol a
character, followed by a blank and one dot for each level of nesting.  The stretch starts at the
position itself unless it would then run past the end of the input.
-/
namespace Rebind.Trace

/-- The events that trace lines tell of. -/
inductive Event where
  | enter | okay | fail
  deriving DecidableEq, Repr

def inverse : String := Ansi.code "7"

def dim : String := Ansi.code "2"

def onGreen : String := Ansi.code "42"

def onRed : String := Ansi.code "41"

def blue : String := Ansi.code "34"

def green : String := Ansi.code "32"

def yellow : String := Ansi.code "33"

/-- A symbol that shows a blank or a control character. -/
def visible (c : Char) : Char :=
  if c = ' ' then '␣'
  else if c = '\n' then '⏎'
  else if c = '\t' then '↹'
  else if c.toNat < 0x20 then Char.ofNat (0x2400 + c.toNat)
  else c

/-- Where the window starts in an input of `size` characters. -/
def windowStart (size offset width : Int) : Int := max 0 (min offset (size - width))

def cellStyle (event : Event) (offset : Int) (stop : Option Int) (i : Int) : Option String :=
  if i = offset ∧ event = .enter then some inverse
  else if i = offset ∧ event = .fail then some onRed
  else if event = .okay ∧ offset ≤ i ∧ stop.any (i < ·) then some onGreen
  else if i < offset then some dim
  else none

def cell (event : Event) (offset : Int) (stop : Option Int) (i : Int) (c : Char) : String :=
  let shown := String.singleton (visible c)
  match cellStyle event offset stop i with
  | some style => Ansi.styled style shown
  | none => shown

/-- The blank after the window, which marks the end of the input when the position is there. -/
def marker (event : Event) (size offset : Int) : String :=
  if size ≤ offset ∧ event = .enter then Ansi.styled inverse " "
  else if size ≤ offset ∧ event = .fail then Ansi.styled onRed " "
  else " "

def replicated (n : Int) (s : String) : String := String.join (List.replicate n.toNat s)

def indent (depth : Int) : String := Ansi.styled dim (replicated depth "· ")

/-- The window on the characters from `start` on, with its padding. -/
def window (event : Event) (offset : Int) (stop : Option Int) (start width : Int) (pad : Bool)
    (cs : List Char) : String :=
  String.join (cs.mapIdx fun k c => cell event offset stop (start + k) c)
    ++ (if pad then replicated (width - cs.length) " " else "")

/-- The part of an input that the window shows. -/
def shownPart (text : List Char) (offset width : Int) : List Char :=
  let start := windowStart text.length offset width
  Slice.between text (some start) (some (start + width))

/-- How a trace line starts: the window on the shown characters, the blank and the dots. -/
def lineStart (event : Event) (width : Int) (pad : Bool) (depth size offset : Int)
    (stop : Option Int) (cs : List Char) : String :=
  window event offset stop (windowStart size offset width) width pad cs
    ++ marker event size offset ++ indent depth

end Rebind.Trace
