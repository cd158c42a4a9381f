import Rebind.Store
/-!
# The machine that runs parsers

Running a parser runs other parsers and calls functions, which may run parsers again.  A `Machine`
offers both services, and everything that a behaviour does is written over an arbitrary machine.  The
knot is tied in `Rebind.Parser.Run` by stacking machines, each of which lends the one below it.
-/
namespace Rebind

/-- The services that a behaviour needs. -/
structure Machine where
  /-- Matches a prefix of a text from an index in an environment, with the current behaviour of a
  parser. -/
  run : ParserId → Value → Value → Value → Eval Value
  /-- Applies a function to arguments. -/
  call : Value → List Value → Eval Value
  /-- Makes a value ready for a function that may keep it or change it. -/
  share : Value → Eval Value
  /-- How many rounds of a repetition without end are tried. -/
  rounds : Nat

/-- How the functions that a grammar supplies are called.  It is a parameter of the machine: what a
parser does depends on its functions only through what they return. -/
structure Host where
  apply : Machine → Value → List Value → Eval Value
  share : Value → Eval Value

end Rebind
