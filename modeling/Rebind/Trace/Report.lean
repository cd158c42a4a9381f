import Rebind.Value.Basic
/-!
# Reports to trace handlers

A handler hears of a run in two calls, one before the behaviour and one after it.  The store keeps on
record which calls were made, how each of them ended, and how the behaviour between them ended, so
what handlers were told can be stated of a run as a whole.
-/
namespace Rebind.Trace

/-- A run of a parser that a handler hears of. -/
structure Visit where
  handler : Value
  parser : Value
  text : Value
  index : Value
  environment : Value
  deriving Inhabited

/-- A step in the report of a visit.  A call of the handler is put on record when it is over, with the
error that it raised if it raised one. -/
inductive Report where
  /-- The handler was told that the run starts. -/
  | enter (visit : Visit) (raised : Option Value)
  /-- The behaviour returned a value or raised an error. -/
  | behaved (visit : Visit) (ended : Except Value Value)
  /-- The handler was told of a result. -/
  | exit (visit : Visit) (outcome : Value) (raised : Option Value)
  /-- The handler was told of an error. -/
  | abort (visit : Visit) (error : Value) (raised : Option Value)
  /-- There was an error that the handler, as it was then, has no method to hear of. -/
  | unheard (visit : Visit) (error present : Value)
  deriving Inhabited

def Report.visit : Report → Visit
  | .enter v _ | .behaved v _ | .exit v _ _ | .abort v _ _ | .unheard v _ _ => v

def Report.handler (r : Report) : Value := r.visit.handler

/-- Whether a behaviour ended in what is no ordinary error, so that its handler never heard of it again. -/
def Report.isInterruption : Report → Bool
  | .behaved _ (.error error) => !error.isOrdinary
  | _ => false

end Rebind.Trace
