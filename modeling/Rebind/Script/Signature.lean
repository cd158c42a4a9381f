import Rebind.Store
/-!
# Signatures

How the arguments of a call find their parameters: by place first, then by name, then by default.  A
call that leaves a parameter without an argument, or an argument without a parameter, is refused.
-/
namespace Rebind.Script

/-- A parameter, with its default if it has one. -/
structure Parameter where
  name : String
  default : Option Value := none

/-- The parameters of an operation: those filled by place or by name, and those filled by name
only. -/
structure Signature where
  placed : List Parameter
  named : List Parameter := []

/-- The argument for a parameter that no argument was placed in. -/
def Parameter.fill (p : Parameter) (keywords : List (String × Value)) : Option Value :=
  match keywords.lookup p.name with
  | some v => some v
  | none => p.default

def Signature.bind (s : Signature) (arguments : List Value) (keywords : List (String × Value)) :
    Eval (List Value) := do
  let vacant := s.placed.drop arguments.length ++ s.named
  let known := keywords.all fun k => vacant.any fun p => p.name = k.1
  if s.placed.length < arguments.length || !known then raise .wrongType
  match vacant.mapM (·.fill keywords) with
  | some rest => return arguments ++ rest
  | none => raise .wrongType

def Parameter.required (name : String) : Parameter := ⟨name, none⟩

def Parameter.optional (name : String) (default : Value) : Parameter := ⟨name, some default⟩

def Signature.required (names : List String) : Signature := ⟨names.map .required, []⟩

/-- The parameters of an operation, where they have names.  The other operations take their arguments
by place only. -/
def Op.signature? : Op → Option Signature
  | .string => some (.required ["literal"])
  | .regex => some ⟨[.required "pattern", .optional "group" (.int 0)], []⟩
  | .fail => some (.required ["description"])
  | .succeed => some (.required ["value"])
  | .testChar => some ⟨[.required "predicate", .optional "description" .none], []⟩
  | .custom => some (.required ["behaviour"])
  | .repetition =>
    some ⟨[.required "parser", .required "min_times", .optional "max_times" .none], []⟩
  | .transform => some (.required ["parser", "fn"])
  | .exclude => some (.required ["allowed", "forbidden"])
  | .describe => some (.required ["parser", "description"])
  | .mark | .markLineColumn | .clone => some (.required ["parser"])
  | .chain => some (.required ["parser", "decide"])
  | .subEnvironment => some (.required ["parser", "derive"])
  | .deferredLookup => some (.required ["resolve"])
  | .replace => some (.required ["target", "source"])
  | .debug => some ⟨[.required "parser", .optional "handler" .none], []⟩
  | .makeHandler =>
    some ⟨[], [.optional "context" (.int 10), .optional "pad_if_short" (.bool false),
      .optional "enter" .none, .optional "exit" .none, .optional "color" .none]⟩
  | .isParser => some (.required ["value"])
  | .newParser => some ⟨[.required "behaviour", .optional "display_name" .none], []⟩
  | .newResult => some (.required ["status", "index", "value"])
  | .newLineColumn => some (.required ["offset", "line", "column"])
  | .newMark => some (.required ["start", "value", "end"])
  | .success => some (.required ["index", "value"])
  | .failure => some (.required ["index", "expected"])
  | .mergeOver => some (.required ["candidate", "previous"])
  | .formatError =>
    some ⟨[.required "text", .required "result", .optional "context" (.int 10)], []⟩
  | .formatExpected => some (.required ["expected"])
  | .formatGot => some ⟨[.required "text", .required "index", .optional "context" (.int 10)], []⟩
  | .newRenderer =>
    some ⟨[], [.optional "color" (.bool true), .optional "context" (.int 10)]⟩
  | .newParseError =>
    some ⟨[.required "text", .required "result", .optional "name" (.str "<input>")], []⟩
  | .lineColumn => some (.required ["text", "offset"])
  | .newSource => some ⟨[.required "text", .optional "name" (.str "<input>")], []⟩
  | .describePattern => some (.required ["pattern"])
  | .visible => some (.required ["ch"])
  | .findConfig | .configFor => some ⟨[.optional "start_path" .none], []⟩
  | .loadConfig => some (.required ["path"])
  | .loadGrammar => some (.required ["ref"])
  | _ => none

def callSignature : Signature :=
  ⟨[.required "text", .optional "environment" .none, .optional "index" (.int 0)], []⟩

def runSignature : Signature :=
  ⟨[.required "text", .optional "index" (.int 0), .optional "environment" .none], []⟩

def parseSignature : Signature :=
  ⟨[.required "text", .optional "environment" .none], [.optional "name" (.str "<input>")]⟩

def renderSignature : Signature :=
  ⟨[.required "text", .required "result", .optional "name" (.str "<input>")], []⟩

def behaviourSignature (b : Behaviour Value) : Signature :=
  .required ["text", b.indexName, b.environmentName]

end Rebind.Script
