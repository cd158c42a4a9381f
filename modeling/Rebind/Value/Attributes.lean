import Rebind.Text.Lines
import Rebind.Value.Operations
/-!
# Attributes

The named parts of a value.  The parts of a parser, of a printing handler and of a few records can be
set as well; those of a result, a mark or a position never change.
-/
namespace Rebind

def attributeOf (v : Value) (name : String) : Eval Value := do
  match ← view v, name with
  | .parser id, "display_name" => return (((← get).parser? id).map (·.displayName)).getD .none
  | .parser id, "behaviour" => return (((← get).parser? id).map (·.behaviour)).getD .none
  | .result status _ _, "status" => return status
  | .result _ index _, "index" => return index
  | .result _ _ value, "value" => return value
  | .result status _ value, "expected" => return if ← truthy status then .list [] else value
  | .mark start _ _, "start" => return start
  | .mark _ value _, "value" => return value
  | .mark _ _ stop, "end" => return stop
  | .lineColumn offset _ _, "offset" => return offset
  | .lineColumn _ line _, "line" => return line
  | .lineColumn _ _ column, "column" => return column
  | .mismatch text _ _ _, "text" => return text
  | .mismatch _ outcome _ _, "result" => return outcome
  | .mismatch _ _ title _, "name" => return title
  | .mismatch _ outcome _ _, "index" => attributeOfResult outcome fun r => r.index
  | .mismatch _ outcome _ _, "expected" => attributeOfResult outcome fun r => r.value
  | .echo id, part =>
    match (← get).echoes[id]?, part with
    | some s, "depth" => return s.depth
    | some s, "context" => return s.context
    | some s, "pad_if_short" => return s.padIfShort
    | some s, "on_enter" => return s.onEnter
    | some s, "on_exit" => return s.onExit
    | some s, "color" => return s.color
    | _, _ => raise .missingAttribute
  | .handler methods, part =>
    match methods.lookup part with
    | some f => return f
    | none => raise .missingAttribute
  | .source text _, "text" => return .str text
  | .source _ title, "name" => return title
  | .source text _, "lines" => return .list ((Text.lines text).map Value.str)
  | .renderer color _, "color" => return color
  | .renderer _ context, "context" => return context
  | .closure _ _ _ (.named title) _, "__name__" => return .str title
  | .behaviour b, "__name__" => return .str b.functionName
  | _, _ => raise .missingAttribute
where
  /-- A part of the result that an error carries. -/
  attributeOfResult (outcome : Value) (part : Result → Value) : Eval Value :=
    match outcome.result? with
    | some r => pure (part r)
    | none => raise .missingAttribute

def setParserPart (id : ParserId) (name : String) (w : Value) : Eval Unit :=
  modify fun σ =>
    match σ.parser? id, name with
    | some s, "behaviour" => σ.setParser id { s with behaviour := w }
    | some s, "display_name" => σ.setParser id { s with displayName := w }
    | _, _ => σ

def setEchoPart (id : HandlerId) (name : String) (w : Value) : Eval Unit :=
  modify fun σ =>
    match σ.echoes[id]?, name with
    | some s, "depth" => σ.setEcho id { s with depth := w }
    | some s, "context" => σ.setEcho id { s with context := w }
    | some s, "pad_if_short" => σ.setEcho id { s with padIfShort := w }
    | some s, "on_enter" => σ.setEcho id { s with onEnter := w }
    | some s, "on_exit" => σ.setEcho id { s with onExit := w }
    | some s, "color" => σ.setEcho id { s with color := w }
    | _, _ => σ

/-- The content of an object after one of its parts was set, if that part can be set. -/
def withPart (name : String) (w : Value) : Value → Eval Value
  | .mismatch text outcome title message =>
    match name with
    | "text" => return .mismatch w outcome title message
    | "result" => return .mismatch text w title message
    | "name" => return .mismatch text outcome w message
    | _ => raise .missingAttribute
  | .renderer color context =>
    match name with
    | "color" => return .renderer w context
    | "context" => return .renderer color w
    | _ => return .renderer color context
  | .source text title =>
    match name with
    | "name" => return .source text w
    | _ => return .source text title
  | .handler methods => return .handler ((name, w) :: methods.filter (·.1 != name))
  | .result _ _ _ | .mark _ _ _ | .lineColumn _ _ _ => raise .frozenField
  | .closure params body captured title scope => return .closure params body captured title scope
  | .behaviour b => return .behaviour b
  | .error c => return .error c
  | .settings a b c d e => return .settings a b c d e
  | _ => raise .missingAttribute

def setAttributeOf (v : Value) (name : String) (w : Value) : Eval Unit := do
  match v with
  | .parser id => setParserPart id name w
  | .echo id => setEchoPart id name w
  | .object id _ => edit id (← withPart name w (← view v))
  | v => do let _ ← withPart name w v

end Rebind
