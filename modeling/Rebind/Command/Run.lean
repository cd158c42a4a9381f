import Rebind.Command.Arguments
import Rebind.Command.Help
import Rebind.Json.Reader
import Rebind.Script.Eval
import Rebind.Script.Reader
/-!
# The command line

The program reads a text from a file or from its standard input, parses it with a grammar, and prints
the value as JSON or the failure as a diagnostic.  Options and arguments are checked in the order in which
they were given, then the configuration is read, then the grammar, then the environment.
-/
namespace Rebind.Command

/-- How a command ended: its exit code, what it wrote to its two outputs, and the error that it
ended in, if it was not one that the command line reports itself. -/
structure Outcome where
  exitCode : Nat
  stdout : String
  stderr : String
  error : Option Datum := none

/-- Lines as a text, each with its line end. -/
def unlines (lines : List String) : String := String.join (lines.map (· ++ "\n"))

def printed (lines : List String) : Outcome := ⟨0, unlines lines, "", none⟩

/-- How a command is called, and the words that lead to it. -/
structure Usage where
  line : String
  path : String

def programCall : Usage := ⟨programUsage, programName⟩

def parseCall : Usage := ⟨parseUsage, programName ++ " parse"⟩

/-- What is written about a misuse of a command: how the command is used, unless it is about the value
of an option, and then the misuse itself. -/
def misuseText (u : Usage) (m : Misuse) : String :=
  let reminder := if m.isAboutOptionValue then []
    else [u.line, "Try '" ++ u.path ++ " --help' for help.", ""]
  unlines (reminder ++ ["Error: " ++ Ansi.strip m.message])

def misused (u : Usage) (m : Misuse) (notes : List String) (stdout : String) : Outcome :=
  ⟨2, stdout, unlines notes ++ misuseText u m, none⟩

def programOptions : List OptionSpec :=
  [⟨"--version", none, false⟩, ⟨"--verbose", some 'v', false⟩, ⟨"--help", none, false⟩]

def parseOptions : List OptionSpec :=
  [⟨"--env", none, true⟩, ⟨"--trace", none, false⟩, ⟨"--config", none, true⟩,
   ⟨"--help", none, false⟩]

def newlines : List Char → List Char
  | '\r' :: '\n' :: rest => '\n' :: newlines rest
  | '\r' :: rest => '\n' :: newlines rest
  | c :: rest => c :: newlines rest
  | [] => []

/-- What the parse command works with. -/
structure Request where
  grammar : String
  fileName : String
  text : String
  environment : Option String
  trace : Bool
  config : Option String

def inputText (t : FileTree) (stdin : String) (file : String) : Except Misuse (String × String) :=
  let refuse := fun (reason : String) =>
    (.error (.badValue "'[FILE]'" ("'" ++ file ++ "': " ++ reason)) : Except Misuse (String × String))
  let read := fun (s : String) => String.ofList (newlines s.toList)
  if file = "-" then .ok ("<stdin>", read stdin)
  else match t.find file with
    | .file (.text s) => .ok (file, read s)
    | .file (.grammar _) => .ok (file, "")
    | .folder => refuse "Is a directory"
    | .absent => refuse Cause.noSuchFileReason
    | .blocked => refuse "Not a directory"

/-- Checks that a configuration file that was asked for is there. -/
def checkConfig (t : FileTree) (config : String) : Except Misuse Unit :=
  let refuse := fun (reason : String) =>
    (.error (.badValue "'--config'" ("File " ++ Text.quoted config ++ " " ++ reason))
      : Except Misuse Unit)
  match t.find config with
  | .file _ => .ok ()
  | .folder => refuse "is a directory."
  | .absent | .blocked => refuse "does not exist."

/-- What the words after the options of the parse command stand for.  The configuration is an option
and so is checked before the arguments. -/
def requestOf (t : FileTree) (stdin : String) (s : Sorted) : Except Misuse Request := do
  let config := s.value? "--config"
  if let some c := config then checkConfig t c
  match s.words with
  | [] => .error (.missingArgument "GRAMMAR")
  | grammar :: rest => do
    let (fileName, text) ← inputText t stdin (rest.head?.getD "-")
    if rest.length > 1 then .error (.extraArguments (rest.drop 1))
    return ⟨grammar, fileName, text, s.value? "--env", s.has "--trace", config⟩

/-- How a parse ended. -/
inductive Parsed where
  | value (json : String)
  | failure (excerpt : String)

def environmentOf (text : Option String) : Eval Value :=
  match text with
  | none => return .none
  | some s =>
    match Json.parse s with
    | .ok j => (Value.ofJson j).share
    | .error f => raise (.badParameter (f.message s) "--env")

def settingOf (settings : Value) : Eval (Value × Value × Value × Value × Value) := do
  match ← view settings with
  | .settings a b c d e => return (a, b, c, d, e)
  | _ => raise .missingAttribute

def parseRequest (m : Machine) (r : Request) : Eval Parsed := do
  let settings ← match r.config with
    | some p => Config.load (.path (Path.tidy p))
    | none => Config.inForce .none
  let (context, pad, color, errorContext, errorColor) ← settingOf settings
  let grammar ← Script.loadGrammar m (.str r.grammar)
  let env ← environmentOf r.environment
  let parser ← if r.trace then do
      Grammar.debug grammar (← Grammar.makeHandler context pad .none .none color)
    else pure grammar
  note "partser.cli"
    ("parsing " ++ toString r.text.toList.length ++ " characters from " ++ r.fileName)
  let outcome ← m.call parser [.str r.text, env]
  let result ← resultOf outcome
  if ← truthy result.status then
    match (← shown result.value).toJson .lenient with
    | .ok j => return .value (j.render Json.spaced)
    | .error c => raise c
  else
    return .failure
      (← renderFailure errorColor errorContext (.str r.text) outcome (.str r.fileName))

/-- What a command wrote that ended in some way, and its exit code.  A request to end the program tells its
reason, and an interruption from the keyboard is told in words of its own. -/
def written (verbose : Bool) (ended : EStateM.Result Fault Store Parsed) : Outcome :=
  let (result, σ) := match ended with
    | .ok p σ => (Except.ok p, σ)
    | .error e σ => (Except.error e, σ)
  let out := unlines σ.printed
  let notes := if verbose then σ.notes else []
  match result with
  | .ok (.value json) => ⟨0, out ++ unlines [Ansi.strip json], unlines notes, none⟩
  | .ok (.failure excerpt) => ⟨1, out, unlines notes ++ unlines [Ansi.strip excerpt], none⟩
  | .error .endless => ⟨1, out, unlines notes, none⟩
  | .error (.raised e) =>
    match e.content with
    | .error (.badParameter message hint) => misused parseCall (.badValue hint message) notes out
    | .error (.complaint .systemExit reason) => ⟨1, out, unlines (notes ++ [reason]), none⟩
    | .error (.complaint .keyboardInterrupt _) => ⟨1, out, unlines (notes ++ ["", "Aborted!"]), none⟩
    | _ => ⟨1, out, unlines notes, some (σ.snapshot e)⟩

def runRequest (m : Machine) (t : FileTree) (verbose : Bool) (r : Request) : Outcome :=
  written verbose (parseRequest m r { Store.initial with files := t })

def runParse (m : Machine) (t : FileTree) (stdin : String) (verbose : Bool) (words : List String) :
    Outcome :=
  match sortWords parseOptions true words ⟨[], []⟩ with
  | .error e => misused parseCall e [] ""
  | .ok s =>
    if s.has "--help" then printed parseHelp
    else match requestOf t stdin s with
      | .error e => misused parseCall e [] ""
      | .ok r => runRequest m t verbose r

def aboutProgram? (s : Sorted) : Option Outcome :=
  (s.firstOf ["--version", "--help"]).map fun name =>
    if name = "--version" then printed [programName ++ ", version " ++ version]
    else printed programHelp

/-- Whether a word starts like an option, with neither a letter nor a digit. -/
def startsLikeOption (word : String) : Bool :=
  word.toList.head?.any fun c => c = '_' || !Regex.Category.word.holds false c

/-- Refuses a command that does not exist.  A name that starts like an option is taken for a misplaced
one, and the program shows its help. -/
def refuseCommand (name : String) : Outcome :=
  if startsLikeOption name then printed programHelp
  else misused programCall (.noSuchCommand name) [] ""

def mayReadInput (words : List String) : Bool := words.contains "parse"

/-- The paths that a command line may lead to from a working folder: its words and what they hold
before a colon or after an equals sign, and the configuration files at or above the folder. -/
def pathsNamed (working : List String) (words : List String) : List String :=
  words
    ++ words.filterMap (fun w => (Script.splitReference? w).map (·.1))
    ++ words.filterMap (fun w => (splitValue w).2)
    ++ (Path.ancestors working).map fun f => Path.shown (f ++ [Config.fileName])

/-- What a file with this text holds, by its path. -/
def contentOf (path text : String) : FileContent :=
  if Script.isGrammarFile path then .grammar (Script.definitionsIn text) else .text text

/-- What is written to the error output in the end: what the command wrote, and the error that it ended
in. -/
def Outcome.complaints (o : Outcome) : String :=
  o.stderr ++ (match o.error with
    | some e => unlines [e.kindName ++ ": " ++ e.text]
    | none => "")

/-- Runs the program on its command line, with what grammars define evaluated on a machine. -/
def runOn (m : Machine) (words : List String) (stdin : String) (t : FileTree) : Outcome :=
  if words.isEmpty then printed programHelp
  else match sortWords programOptions false words ⟨[], []⟩ with
    | .error e => misused programCall e [] ""
    | .ok s =>
      match aboutProgram? s, s.words with
      | some outcome, _ => outcome
      | none, [] => misused programCall .missingCommand [] ""
      | none, name :: rest =>
        if name = "parse" then runParse m t stdin (s.has "--verbose") rest
        else refuseCommand name

def run (words : List String) (stdin : String) (t : FileTree) : Outcome :=
  runOn Script.mainMachine words stdin t

end Rebind.Command
