import Rebind.Text.Quoted
/-!
# Causes of errors

Everything that can go wrong apart from a text that does not match, which is a result and no error.
-/
namespace Rebind

/-- The kinds of error that a script can raise by itself.  The last three are no ordinary errors: they
end a program, and whoever takes care of errors lets them pass. -/
inductive Complaint where
  | badValue | missingKey | divisionByZero | runtime
  | systemExit | keyboardInterrupt | generatorExit
  deriving DecidableEq, Repr, Inhabited

/-- Why an evaluation was given up. -/
inductive Cause where
  /-- A combinator was given something that it cannot combine. -/
  | malformedGrammar (message : String)
  /-- A command was given a bad argument. -/
  | badParameter (message hint : String)
  /-- Neither a folder nor any above it holds a file of this name. -/
  | noFileAbove (file folder : String)
  /-- There is no file at a path. -/
  | noSuchFile (path : String)
  /-- A script raised an error. -/
  | complaint (kind : Complaint) (message : String)
  | wrongType
  | missingAttribute
  | missingKey
  | outOfRange
  | badValue
  | badPattern
  | badDocument
  | isFolder
  | notFolder
  | frozenField
  | tooDeep
  deriving DecidableEq, Repr, Inhabited

def Complaint.name : Complaint → String
  | .badValue => "ValueError"
  | .missingKey => "KeyError"
  | .divisionByZero => "ZeroDivisionError"
  | .runtime => "RuntimeError"
  | .systemExit => "SystemExit"
  | .keyboardInterrupt => "KeyboardInterrupt"
  | .generatorExit => "GeneratorExit"

def Complaint.isOrdinary : Complaint → Bool
  | .systemExit | .keyboardInterrupt | .generatorExit => false
  | _ => true

namespace Cause

/-- The name of the kind of error, as trace lines and answers show it. -/
def name : Cause → String
  | malformedGrammar _ => "GrammarError"
  | badParameter _ _ => "BadParameter"
  | noFileAbove _ _ | noSuchFile _ => "FileNotFoundError"
  | complaint kind _ => kind.name
  | wrongType => "TypeError"
  | missingAttribute => "AttributeError"
  | missingKey => "KeyError"
  | outOfRange => "IndexError"
  | badValue => "ValueError"
  | badPattern => "error"
  | badDocument => "TOMLDecodeError"
  | isFolder => "IsADirectoryError"
  | notFolder => "NotADirectoryError"
  | frozenField => "FrozenInstanceError"
  | tooDeep => "RecursionError"

/-- Whether those who take care of errors hear of this one. -/
def isOrdinary : Cause → Bool
  | complaint kind _ => kind.isOrdinary
  | _ => true

def noSuchFileReason : String := "No such file or directory"

def message? : Cause → Option String
  | malformedGrammar message | badParameter message _ | complaint _ message => some message
  | noFileAbove file folder => some ("no " ++ file ++ " at or above " ++ folder)
  | noSuchFile path => some ("[Errno 2] " ++ noSuchFileReason ++ ": " ++ Text.quoted path)
  | _ => none

end Cause

end Rebind
