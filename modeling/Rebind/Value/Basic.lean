import Rebind.Behaviour
import Rebind.Cause
import Rebind.Script.Expr
/-!
# Values

Everything that a grammar handles: plain data, parsers and functions, results, and the records that
describe positions, errors and settings.  The grammar language is untyped, so all of it is one type.

A composite value that a script has seen is an `object`: it carries an identity beside the content
it was made with.  The content that holds now is found through `Store.view`, because a script may
have changed it.  Values that the parsers make for themselves carry no identity until a script gets
hold of them.
-/
namespace Rebind

abbrev HandlerId := Nat

/-- A value. -/
inductive Value where
  | none
  | bool (b : Bool)
  | int (n : Int)
  | float (x : Floating)
  | str (s : String)
  | list (items : List Value)
  | tuple (items : List Value)
  | dict (entries : List (Value × Value))
  | set (items : List Value)
  | object (id : Nat) (content : Value)
  | parser (id : ParserId)
  | behaviour (b : Behaviour Value)
  | closure (parameters : List String) (body : Script.Expr) (captured : List (String × Value))
      (title : Script.Title) (scope : Nat)
  | result (status index value : Value)
  | mark (start value stop : Value)
  | lineColumn (offset line column : Value)
  | pattern (r : Regex)
  | path (text : String)
  | moment (kind : String)
  /-- A trace handler made of the given methods. -/
  | handler (methods : List (String × Value))
  /-- A trace handler that prints. -/
  | echo (id : HandlerId)
  | settings (traceContext padIfShort traceColor errorContext errorColor : Value)
  | source (text : String) (name : Value)
  | renderer (color context : Value)
  | error (cause : Cause)
  /-- The error that says that a text does not match a grammar. -/
  | mismatch (text result name : Value) (message : String)
  deriving Inhabited

/-- The outcome of running a parser.  On success `index` is where the consumed input ends and
`value` is what was read; on failure `index` is the furthest place reached and `value` lists what
was expected there. -/
structure Result where
  status : Value
  index : Value
  value : Value
  deriving Inhabited

namespace Value

/-- The value made with the identity stripped. -/
def content : Value → Value
  | .object _ v => v
  | v => v

/-- The result that a value is.  A result never changes, so its identity does not matter. -/
def result? (v : Value) : Option Result :=
  match v.content with
  | .result status index value => some ⟨status, index, value⟩
  | _ => .none

/-- Whether those who take care of errors hear of this value when it is raised. -/
def isOrdinary (v : Value) : Bool :=
  match v.content with
  | .error c => c.isOrdinary
  | _ => true

/-- A success that ends at `index`. -/
def success (index value : Value) : Value :=
  .result (.bool true) index value

/-- A failure at `index` that expected one thing. -/
def failure (index expected : Value) : Value :=
  .result (.bool false) index (.list [expected])

@[simp] theorem result?_success (i v : Value) :
    (success i v).result? = some ⟨.bool true, i, v⟩ := rfl

@[simp] theorem result?_failure (i d : Value) :
    (failure i d).result? = some ⟨.bool false, i, .list [d]⟩ := rfl

mutual

/-- Gives every composite part that has no identity a fresh one, counted from `next`. -/
def identify : Value → Nat → Value × Nat
  | .list items, next =>
    let (items, next) := identifyAll items next
    (.object next (.list items), next + 1)
  | .tuple items, next =>
    if items.isEmpty then (.tuple [], next)
    else
      let (items, next) := identifyAll items next
      (.object next (.tuple items), next + 1)
  | .dict entries, next =>
    let (entries, next) := identifyEntries entries next
    (.object next (.dict entries), next + 1)
  | .set items, next =>
    let (items, next) := identifyAll items next
    (.object next (.set items), next + 1)
  | .result status index value, next =>
    let (status, next) := identify status next
    let (index, next) := identify index next
    let (value, next) := identify value next
    (.object next (.result status index value), next + 1)
  | .mark start value stop, next =>
    let (start, next) := identify start next
    let (value, next) := identify value next
    let (stop, next) := identify stop next
    (.object next (.mark start value stop), next + 1)
  | .settings a b c d e, next =>
    let (a, next) := identify a next
    let (b, next) := identify b next
    let (c, next) := identify c next
    let (d, next) := identify d next
    let (e, next) := identify e next
    (.object next (.settings a b c d e), next + 1)
  | .mismatch a b c message, next =>
    let (a, next) := identify a next
    let (b, next) := identify b next
    let (c, next) := identify c next
    (.object next (.mismatch a b c message), next + 1)
  | .none, next => (.none, next)
  | .bool b, next => (.bool b, next)
  | .int n, next => (.int n, next)
  | .float x, next => (.float x, next)
  | .str s, next => (.str s, next)
  | .object id v, next => (.object id v, next)
  | .parser id, next => (.parser id, next)
  | .echo id, next => (.echo id, next)
  | v, next => (.object next v, next + 1)

/-- Gives identities to the parts of several values. -/
def identifyAll : List Value → Nat → List Value × Nat
  | [], next => ([], next)
  | v :: rest, next =>
    let (v, next) := identify v next
    let (rest, next) := identifyAll rest next
    (v :: rest, next)

/-- Gives identities to the parts of the keys and values of a dictionary. -/
def identifyEntries : List (Value × Value) → Nat → List (Value × Value) × Nat
  | [], next => ([], next)
  | (k, v) :: rest, next =>
    let (k, next) := identify k next
    let (v, next) := identify v next
    let (rest, next) := identifyEntries rest next
    ((k, v) :: rest, next)

end

end Value

end Rebind
