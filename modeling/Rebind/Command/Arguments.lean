import Rebind.Text.Quoted
import Rebind.Text.Similarity
/-!
# Command-line arguments

Which of the words on a command line are options, which are the values of options, and which are
arguments.  Two dashes alone end the options.  A long option may carry its value after an equals
sign; short options, none of which takes a value, may share one dash.
-/
namespace Rebind.Command

/-- Why a command line is refused. -/
inductive Misuse where
  | noSuchOption (name : String) (similar : List String)
  | needsValue (name : String)
  | takesNoValue (name : String)
  | missingArgument (name : String)
  | extraArguments (words : List String)
  | missingCommand
  | noSuchCommand (name : String)
  | badValue (place message : String)
  deriving DecidableEq, Repr

def Misuse.message : Misuse → String
  | .noSuchOption name similar =>
    "No such option: " ++ name ++ (match similar with
      | [] => ""
      | [one] => " Did you mean " ++ one ++ "?"
      | several => " (Possible options: " ++ ", ".intercalate several ++ ")")
  | .needsValue name => "Option " ++ Text.quoted name ++ " requires an argument."
  | .takesNoValue name => "Option " ++ Text.quoted name ++ " does not take a value."
  | .missingArgument name => "Missing argument '" ++ name ++ "'."
  | .extraArguments words =>
    "Got unexpected extra argument" ++ (if words.length = 1 then "" else "s") ++ " ("
      ++ " ".intercalate words ++ ")"
  | .missingCommand => "Missing command."
  | .noSuchCommand name => "No such command " ++ Text.quoted name ++ "."
  | .badValue place message => "Invalid value for " ++ place ++ ": " ++ message

/-- Whether a misuse is that an option has no value, or one too many. -/
def Misuse.isAboutOptionValue : Misuse → Bool
  | .needsValue _ | .takesNoValue _ => true
  | _ => false

/-- An option: its long name, its letter if it has one, and whether it takes a value. -/
structure OptionSpec where
  name : String
  letter : Option Char := none
  takesValue : Bool := false

/-- An option as it was given. -/
structure Given where
  name : String
  value : Option String
  deriving DecidableEq, Repr

/-- The options of a command line in order, and the words that are left. -/
structure Sorted where
  given : List Given
  words : List String

/-- The name of an option and the value written after an equals sign. -/
def splitValue (word : String) : String × Option String :=
  let name := word.toList.takeWhile (· != '=')
  let rest := word.toList.drop name.length
  (String.ofList name, if rest.isEmpty then none else some (String.ofList (rest.drop 1)))

def lettersOf (specs : List OptionSpec) : List Char → Except Misuse (List Given)
  | [] => .ok []
  | c :: rest =>
    match specs.find? (·.letter = some c) with
    | some spec => do return ⟨spec.name, none⟩ :: (← lettersOf specs rest)
    | none => .error (.noSuchOption (String.ofList ['-', c]) [])

def isOptionWord (word : String) : Bool := word.startsWith "-" && word != "-"

/-- What an option word asks for. -/
inductive Reading where
  /-- Options that are complete. -/
  | complete (given : List Given)
  /-- An option whose value is the next word. -/
  | needsNext (name : String)

def readOption (specs : List OptionSpec) (word : String) : Except Misuse Reading :=
  let (name, value) := splitValue word
  match specs.find? (·.name = name) with
  | some spec =>
    match spec.takesValue, value with
    | true, some v => .ok (.complete [⟨name, some v⟩])
    | true, none => .ok (.needsNext name)
    | false, some _ => .error (.takesNoValue name)
    | false, none => .ok (.complete [⟨name, none⟩])
  | none =>
    if word.startsWith "--" then
      .error (.noSuchOption name (Similarity.closeTo name (specs.map (·.name))))
    else do return .complete (← lettersOf specs (word.toList.drop 1))

/-- Sorts the words of a command line.  Unless `mixed`, the first word that is no option ends the
options. -/
def sortWords (specs : List OptionSpec) (mixed : Bool) :
    List String → Sorted → Except Misuse Sorted
  | [], s => .ok s
  | word :: rest, s =>
    if word = "--" then .ok { s with words := s.words ++ rest }
    else if isOptionWord word then
      match readOption specs word with
      | .error e => .error e
      | .ok (.complete given) => sortWords specs mixed rest { s with given := s.given ++ given }
      | .ok (.needsNext name) =>
        match rest with
        | [] => .error (.needsValue name)
        | v :: rest =>
          sortWords specs mixed rest { s with given := s.given ++ [⟨name, some v⟩] }
    else if mixed then sortWords specs mixed rest { s with words := s.words ++ [word] }
    else .ok { s with words := s.words ++ word :: rest }

def Sorted.has (s : Sorted) (name : String) : Bool := s.given.any (·.name = name)

def Sorted.value? (s : Sorted) (name : String) : Option String :=
  (s.given.reverse.find? (·.name = name)).bind (·.value)

/-- The first of some options to be given. -/
def Sorted.firstOf (s : Sorted) (names : List String) : Option String :=
  (s.given.find? fun g => names.contains g.name).map (·.name)

end Rebind.Command
