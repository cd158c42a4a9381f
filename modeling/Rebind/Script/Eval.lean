import Rebind.Config
import Rebind.Script.Data
import Rebind.Script.Modules
/-!
# Evaluating scripts

An expression is evaluated on a machine, in a table of names and in the values of the enclosing
functions' parameters.  A function closes over those values and over the table, whose names are looked
up when they are used, so a grammar may refer to parsers that are defined after it.
-/
namespace Rebind.Script

/-- Where an expression is evaluated: the table of names, and the enclosing parameters, the innermost
first. -/
structure Context where
  scope : Nat
  locals : List (String × Value)

def namesOf (scope : Nat) : Eval (List (String × Value)) := do
  return ((← get).scopes[scope]?).getD []

/-- Opens a table that holds the shared primitives. -/
def openScope : Eval Nat := fun σ =>
  let names := sharedPrimitives.mapIdx fun i p => (p.1, Value.parser i)
  .ok σ.scopes.size { σ with scopes := σ.scopes.push names }

def setName (scope : Nat) (name : String) (v : Value) : Eval Unit :=
  modify fun σ =>
    { σ with scopes := σ.scopes.modify scope fun names =>
        (name, v) :: names.filter (·.1 != name) }

/-- The value of a name. -/
def lookUp (c : Context) (name : String) : Eval Value := do
  match c.locals.lookup name with
  | some v => return v
  | none =>
    match (← namesOf c.scope).lookup name with
    | some v => return v
    | none => raise .missingKey

def callWith (m : Machine) (f : Value) (arguments : List Value)
    (keywords : List (String × Value)) : Eval Value := do
  match f.content with
  | .parser _ => do m.call f (← callSignature.bind arguments keywords)
  | .behaviour b => do m.call f (← (behaviourSignature b).bind arguments keywords)
  | .closure _ _ _ _ _ => if keywords.isEmpty then m.call f arguments else raise .wrongType
  | _ => raise .wrongType

def runWith (m : Machine) (p : Value) (arguments : List Value)
    (keywords : List (String × Value)) : Eval Value := do
  match p, ← isParser p with
  | .parser id, true => do
    match ← runSignature.bind arguments keywords with
    | [text, i, env] => m.run id text i env
    | _ => raise .wrongType
  | _, _ => raise .missingAttribute

def parseWith (m : Machine) (p : Value) (arguments : List Value)
    (keywords : List (String × Value)) : Eval Value := do
  match p, ← isParser p with
  | .parser id, true => do
    match ← parseSignature.bind arguments keywords with
    | [text, env, name] => parseText m id text env name
    | _ => raise .wrongType
  | _, _ => raise .missingAttribute

def callMethodWith (m : Machine) (v : Value) (name : String) (arguments : List Value)
    (keywords : List (String × Value)) : Eval Value := do
  match ← view v, name with
  | .source text _, "line_at" => do
    match ← (Signature.required ["n"]).bind arguments keywords with
    | [n] => lineAtOf text n
    | _ => raise .wrongType
  | .source text _, "position" => do
    match ← (Signature.required ["offset"]).bind arguments keywords with
    | [offset] => lineColumnOf (.str text) offset
    | _ => raise .wrongType
  | .renderer color context, "render" => do
    match ← renderSignature.bind arguments keywords with
    | [text, outcome, title] => return .str (← renderFailure color context text outcome title)
    | _ => raise .wrongType
  | .renderer color context, "render_error" => do
    match ← (Signature.required ["error"]).bind arguments keywords with
    | [error] => do
      let text ← attributeOf error "text"
      let outcome ← attributeOf error "result"
      let title ← attributeOf error "name"
      return .str (← renderFailure color context text outcome title)
    | _ => raise .wrongType
  | .parser _, "run" => runWith m v arguments keywords
  | .parser _, "parse" => parseWith m v arguments keywords
  | .echo _, name => do
    let front := ["parser", "text", "offset", "environment"]
    let names := match name with
      | "exit" => front ++ ["result"]
      | "abort" => front ++ ["error"]
      | _ => front
    Trace.callMethod m v name (← (Signature.required names).bind arguments keywords)
  | .handler _, name =>
    if keywords.isEmpty then Trace.callMethod m v name arguments else raise .wrongType
  | _, _ => raise .missingAttribute

/-- Evaluates the definitions of a grammar file one after the other.  Each is evaluated as the body of
a function without parameters. -/
def define (m : Machine) (scope : Nat) : List (String × Expr) → Eval Unit
  | [] => return ()
  | (name, body) :: rest => do
    setName scope name (← m.call (.closure [] body [] (.nameless name) scope) [])
    define m scope rest

/-- Reads a grammar file and gives the value of one of the names that it defines. -/
def loadFile (m : Machine) (place name : String) : Eval Value := do
  match (← get).files.find (Path.tidy place) with
  | .file content => do
    let definitions := match content with
      | .grammar definitions => definitions
      | .text _ => []
    let scope ← openScope
    define m scope definitions
    if definitions.any (·.1 = name) then lookUp ⟨scope, []⟩ name else return .none
  | _ => raise (.badParameter ("no such file: " ++ place) "GRAMMAR")

def loadBuiltIn (place name : String) : Eval Value := do
  if place.startsWith "." then raise .wrongType
  match missingModule? place with
  | some message => raise (.badParameter message "GRAMMAR")
  | none =>
    match (primitivesIn place).contains name, sharedPrimitives.findIdx? (·.1 = name) with
    | true, some i => return .parser i
    | _, _ => return .none

def loadGrammar (m : Machine) (ref : Value) : Eval Value := do
  match ref with
  | .str s =>
    match splitReference? s with
    | none =>
      raise (.badParameter ("expected MODULE:NAME, got " ++ Text.quoted s) "GRAMMAR")
    | some (place, name) => do
      let found ← if isGrammarFile place then loadFile m place name else loadBuiltIn place name
      unless ← isParser found do
        raise (.badParameter (Text.quoted name ++ " in " ++ place ++ " is not a parser") "GRAMMAR")
      note "partser.cli" ("loaded grammar " ++ name ++ " from " ++ place)
      return found
  | _ => raise .missingAttribute

def describePattern (v : Value) : Eval Value := do
  match ← view v with
  | .pattern r => return .str r.shown
  | _ => raise .missingAttribute

/-- The operations whose parameters have names, on arguments in the order of the parameters. -/
def libraryOp (m : Machine) (op : Op) (arguments : List Value) : Eval Value := do
  match op, arguments with
  | .string, [a] => Grammar.string a
  | .regex, [a, b] => Grammar.regex a b
  | .fail, [a] => Grammar.fail a
  | .succeed, [a] => Grammar.succeed a
  | .testChar, [a, b] => Grammar.testChar a b
  | .custom, [a] => Grammar.custom a
  | .repetition, [a, b, c] => Grammar.repetition a b c
  | .transform, [a, b] => Grammar.transform a b
  | .exclude, [a, b] => Grammar.exclude a b
  | .describe, [a, b] => Grammar.describe a b
  | .mark, [a] => Grammar.mark a
  | .markLineColumn, [a] => Grammar.markLineColumn a
  | .chain, [a, b] => Grammar.chain a b
  | .subEnvironment, [a, b] => Grammar.subEnvironment a b
  | .deferredLookup, [a] => Grammar.deferredLookup a
  | .replace, [a, b] => do
    Grammar.replace a b
    return .none
  | .clone, [a] => Grammar.clone a
  | .debug, [a, b] => Grammar.debug a b
  | .makeHandler, [a, b, c, d, e] => Grammar.makeHandler a b c d e
  | .isParser, [a] => return .bool (← isParser a)
  | .newParser, [a, b] => Grammar.ofBehaviour a b
  | .newResult, [a, b, c] => return .result a b c
  | .newLineColumn, [a, b, c] => return .lineColumn a b c
  | .newMark, [a, b, c] => return .mark a b c
  | .success, [a, b] => return .success a b
  | .failure, [a, b] => return .failure a b
  | .mergeOver, [a, b] => mergeOver a b
  | .formatError, [a, b, c] => return .str (← errorText a b c)
  | .formatExpected, [a] => expectedOf a
  | .formatGot, [a, b, c] => return .str (← gotText a b c)
  | .newRenderer, [a, b] => return .renderer a b
  | .newParseError, [a, b, c] => newMismatch a b c
  | .lineColumn, [a, b] => lineColumnOf a b
  | .newSource, [a, b] => newSource a b
  | .describePattern, [a] => describePattern a
  | .visible, [a] => Trace.visibleOf a
  | .findConfig, [a] => Config.find a
  | .configFor, [a] => Config.inForce a
  | .loadConfig, [a] => Config.load a
  | .loadGrammar, [a] => loadGrammar m a
  | _, _ => raise .wrongType

def applyOp (m : Machine) (op : Op) (arguments : List Value) (keywords : List (String × Value)) :
    Eval Value := do
  match op.signature? with
  | some s => do libraryOp m op (← s.bind arguments keywords)
  | none =>
    match op, arguments with
    | .call, f :: rest => callWith m f rest keywords
    | .run, p :: rest => runWith m p rest keywords
    | .parse, p :: rest => parseWith m p rest keywords
    | .method, v :: .str name :: rest => callMethodWith m v name rest keywords
    | op, arguments => do
      unless keywords.isEmpty do raise .wrongType
      match op, arguments with
      | .sequence, parsers => Grammar.sequence parsers
      | .alternative, parsers => Grammar.alternative parsers
      | .mapped, [f, v] => do
        let items ← itemsOf v
        return .list (← items.mapM fun w => callWith m f [w] [])
      | op, arguments => dataOp op arguments

/-- The error that an evaluation ends in, as a value. -/
def attempting (body : Eval Value) : Eval Value := Trace.catching body fun error => return error

mutual

/-- The value of an expression.  Whatever comes out has an identity. -/
def eval (m : Machine) (c : Context) : Expr → Eval Value
  | .plain data => (Value.ofJson data).share
  | .reference name => lookUp c name
  | .function parameters body title =>
    (Value.closure parameters body c.locals title c.scope).share
  | .pattern source flags =>
    match Regex.compile? source flags with
    | some r => (Value.pattern r).share
    | none => raise .badPattern
  | .path text => (Value.path (Path.tidy text)).share
  | .set items => do (← setOf (← evalAll m c items) []).share
  | .handler methods => do (Value.handler (← evalNamed m c methods)).share
  | .apply op arguments keywords => do
    let arguments ← evalAll m c arguments
    let keywords ← evalNamed m c keywords
    (← applyOp m op arguments keywords).share
  | .choose condition yes no => do
    if ← truthy (← eval m c condition) then eval m c yes else eval m c no
  | .both first second => do
    let v ← eval m c first
    if ← truthy v then eval m c second else return v
  | .either first second => do
    let v ← eval m c first
    if ← truthy v then return v else eval m c second
  | .attempt body => do (← attempting (eval m c body)).share

def evalAll (m : Machine) (c : Context) : List Expr → Eval (List Value)
  | [] => return []
  | e :: rest => do
    let v ← eval m c e
    return v :: (← evalAll m c rest)

/-- The values of several named expressions, from left to right. -/
def evalNamed (m : Machine) (c : Context) : List (String × Expr) → Eval (List (String × Value))
  | [] => return []
  | (name, e) :: rest => do
    let v ← eval m c e
    return (name, v) :: (← evalNamed m c rest)

end

/-- Calls a function that a script defined.  It takes exactly as many arguments as it has
parameters. -/
def applyClosure (m : Machine) (f : Value) (arguments : List Value) : Eval Value := do
  match f.content with
  | .closure parameters body captured _ scope =>
    if parameters.length = arguments.length then
      eval m ⟨scope, (parameters.zip arguments).reverse ++ captured⟩ body
    else raise .wrongType
  | _ => raise .wrongType

/-- Functions are those that scripts define. -/
def host : Host := ⟨applyClosure, Value.share⟩

def depthLimit : Nat := 1000

/-- How many rounds of a repetition without end are tried. -/
def roundLimit : Nat := 10000000

def mainMachine : Machine := machine host roundLimit depthLimit

end Rebind.Script
