import Rebind.Diagnostic
import Rebind.Parser.Machine
import Rebind.Trace.Window
import Rebind.Value.Encoding
/-!
# The printing trace handler

Prints one line when a parser is entered, one when it ends with a result, and one when it is left by an
error.  The nesting depth is raised last on the way in and lowered first on the way out, so a line
shows the depth at which its parser was entered.  Callbacks can silence a line or add lines to it.
-/
namespace Rebind.Trace

def echoOf (id : HandlerId) : Eval EchoState := do
  match (← get).echoes[id]? with
  | some s => return s
  | none => raise .missingAttribute

def changeDepth (id : HandlerId) (change : Value → Value → Eval Value) : Eval Unit := do
  let s ← echoOf id
  let depth ← change s.depth (.int 1)
  modify fun σ => σ.setEcho id { s with depth }

/-- Prints a line, without its styling unless colours are asked for. -/
def echo (color : Value) (line : String) : Eval Unit := do
  if ← truthy color then printLine line else printLine (Ansi.strip line)

/-- One character of an input that may be a list. -/
def charOf (v : Value) : Eval Char := do
  match ← view v with
  | .str s => match s.toList with
    | [c] => return c
    | _ => raise .wrongType
  | _ => raise .wrongType

def visibleOf (v : Value) : Eval Value := do
  return .ofChar (visible (← charOf v))

def wholeOf (v : Value) : Eval Int := do
  match (← view v).toInt? with
  | some n => return n
  | none => raise .wrongType

def lineStartOf (s : EchoState) (event : Event) (text offset stop : Value) : Eval String := do
  let size ← lengthOf text
  let width ← wholeOf s.context
  let offset ← wholeOf offset
  let stop ← boundOf stop
  let start := windowStart size offset width
  let cs ← match ← sliceOf text (.int start) (.int (start + width)) with
    | .str shown => pure shown.toList
    | shown => do (← itemsOf shown).mapM charOf
  let depth ← wholeOf s.depth
  return lineStart event width (← truthy s.padIfShort) depth size offset stop cs

def placeText (text offset : Value) : Eval String := do
  let (line, column) ← placeOf text offset
  return toString line ++ "," ++ toString column

def nameText (parser : Value) : Eval String := do
  let name ← attributeOf parser "display_name"
  let shown ← textOf name
  return if ← truthy name then blue ++ shown ++ Ansi.reset else shown

def echoExtra (color : Value) (start : String) (extra : Value) : Eval Unit := do
  match ← view extra with
  | .str s => (Text.lines s).forM fun line => echo color (start ++ line)
  | _ => return ()

/-- What a callback says about an event; without one every event is printed. -/
def consult (m : Machine) (callback : Value) (arguments : List Value) : Eval Value := do
  if ← truthy callback then m.call callback arguments else return .bool true

def jsonOf (separators : Json.Separators) (v : Value) : Eval String := do
  match (← shown v).toJson .strict with
  | .ok json => return json.render separators
  | .error c => raise c

def echoEnter (m : Machine) (id : HandlerId) (parser text offset env : Value) : Eval Unit := do
  let extra ← consult m (← echoOf id).onEnter [parser, text, offset, env]
  if ← truthy extra then
    let s ← echoOf id
    let start ← lineStartOf s .enter text offset .none
    let place ← placeText text offset
    echo s.color (start ++ place ++ " " ++ (← nameText parser) ++ " ?")
    echoExtra s.color start extra
  changeDepth id addTo

def okayText (text offset stop : Value) : Eval String := do
  let consumed ← sliceOf text offset stop
  let json ← jsonOf Json.spaced consumed
  let size ← lengthOf consumed
  return Ansi.styled green "OKAY" ++ " " ++ Ansi.styled yellow json ++ " (len " ++ toString size ++ ")"

def echoExit (m : Machine) (id : HandlerId) (parser text offset env outcome : Value) :
    Eval Unit := do
  changeDepth id subtractFrom
  let extra ← consult m (← echoOf id).onExit [parser, text, offset, env, outcome]
  if ← truthy extra then
    let s ← echoOf id
    let name ← nameText parser
    let (start, ending) ←
      if ← truthy (← attributeOf outcome "status") then do
        let stop ← attributeOf outcome "index"
        let start ← lineStartOf s .okay text offset stop
        pure (start, ← okayText text offset stop)
      else do
        let start ← lineStartOf s .fail text offset .none
        let json ← jsonOf Json.compact (← attributeOf outcome "value")
        pure (start, "FAIL " ++ json)
    let place ← placeText text offset
    echo s.color (start ++ place ++ " " ++ name ++ " " ++ ending)
    echoExtra s.color start extra

def echoAbort (id : HandlerId) (parser text offset error : Value) : Eval Unit := do
  changeDepth id subtractFrom
  let s ← echoOf id
  let start ← lineStartOf s .fail text offset .none
  let place ← placeText text offset
  let name ← nameText parser
  echo s.color (start ++ place ++ " " ++ name ++ " RAISE " ++ (← shown error).kindName)

end Rebind.Trace
