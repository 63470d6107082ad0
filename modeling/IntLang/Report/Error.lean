import IntLang.Scope.SemanticError
import IntLang.Tree.Parse

/-! Errors as they are reported: a cause, inside any number of notes on where it arose. -/
namespace IntLang

inductive Error where
  | failure (f : Failure)
  | inSyntax (e : SyntaxError)
  | inScope (e : SemanticError)
  /-- A source file that cannot be opened. -/
  | fileAccess (path : Text) (cause : Error)
  | during (stage : Text) (cause : Error)
  deriving DecidableEq, Repr

namespace Error

def text : Error → Text
  | .failure f => f.text
  | .inSyntax e => e.text
  | .inScope e => e.text
  | .fileAccess path cause => "file access: " ++ path ++ ": " ++ cause.text
  | .during stage cause => if stage = [] then cause.text else stage ++ ": " ++ cause.text

/-- The outermost file that could not be opened, and why. -/
def fileAccess? : Error → Option (Text × Error)
  | .fileAccess path cause => some (path, cause)
  | .during _ cause => cause.fileAccess?
  | _ => none

def syntaxError? : Error → Option SyntaxError
  | .inSyntax e => some e
  | .fileAccess _ cause => cause.syntaxError?
  | .during _ cause => cause.syntaxError?
  | _ => none

def semanticError? : Error → Option SemanticError
  | .inScope e => some e
  | .fileAccess _ cause => cause.semanticError?
  | .during _ cause => cause.semanticError?
  | _ => none

/-- Whether a file that does not exist is at the bottom of it. -/
def isNotExist : Error → Bool
  | .failure f => f.isNotExist
  | .fileAccess _ cause => cause.isNotExist
  | .during _ cause => cause.isNotExist
  | _ => false

end Error

def ParseError.toError : ParseError → Error
  | .read f => .failure f
  | .refused e => .inSyntax e

/-- What can come out in place of a result. -/
inductive Fault where
  | error (e : Error)
  | misuse (m : Misuse)
  deriving DecidableEq, Repr

namespace Fault

/-- A note on where the error arose. A misuse takes none. -/
def during (stage : Text) : Fault → Fault
  | .error e => .error (.during stage e)
  | .misuse m => .misuse m

def ofHalt : Halt → Fault
  | .rejected e => .error (.inScope e)
  | .misused m => .misuse m

def text : Fault → Text
  | .error e => e.text
  | .misuse m => m.message

end Fault
end IntLang
