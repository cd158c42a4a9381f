import Rebind.Json.Basic
import Rebind.Regex.Syntax
/-!
# Grammar scripts

The expressions in which a grammar and what is done with it are written.  An operation is named by
what it does; the words of the written form are in `Rebind.Script.Reader`.
-/
namespace Rebind.Script

/-- Operations that are applied to evaluated arguments. -/
inductive Op where
  -- building parsers
  | string | regex | fail | succeed | testChar | custom | sequence | alternative | repetition
  | transform | exclude | describe | mark | markLineColumn | chain | subEnvironment
  | deferredLookup | replace | clone | debug | makeHandler | newParser
  -- results and diagnostics
  | isParser | newResult | newLineColumn | newMark | success | failure | mergeOver | formatError
  | formatExpected | formatGot | newRenderer | newParseError | lineColumn | newSource
  | describePattern | visible
  -- configuration and grammar files
  | findConfig | loadConfig | configFor | loadGrammar
  -- data
  | list | tuple | dict | item | itemOr | putItem | add | subtract | multiply | equal | less
  | member | negate | same | upper | toInt | length | text | literal | join | slice | startsWith
  | total | mapped | last
  -- effects and access
  | log | complain | attribute | setAttribute | call | run | parse | method
  deriving DecidableEq, Repr, Inhabited

/-- How a function shows itself: under a name, or as a nameless thing. -/
inductive Title where
  | named (name : String)
  | nameless (shown : String)
  deriving DecidableEq, Repr, Inhabited

/-- An expression. -/
inductive Expr where
  /-- Plain data. -/
  | plain (data : Json)
  | reference (name : String)
  | function (parameters : List String) (body : Expr) (title : Title)
  | pattern (source : String) (flags : Regex.Flags)
  | path (text : String)
  | set (items : List Expr)
  | handler (methods : List (String × Expr))
  | apply (op : Op) (arguments : List Expr) (keywords : List (String × Expr))
  /-- Evaluates one of two branches. -/
  | choose (condition yes no : Expr)
  /-- The first value if it counts as false, else the second. -/
  | both (first second : Expr)
  /-- The first value if it counts as true, else the second. -/
  | either (first second : Expr)
  /-- The value, or the error that came up instead. -/
  | attempt (body : Expr)
  deriving Inhabited

end Rebind.Script
