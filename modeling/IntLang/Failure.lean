import IntLang.Text.Basic

/-! Failures of the world outside: a file that cannot be opened, read or written, or a stream
that breaks with a message of its own. -/
namespace IntLang

inductive FileAction where
  | opening
  | reading
  deriving DecidableEq, Repr

inductive FileReason where
  | noSuchFile
  | notDirectory
  | isDirectory
  | nameTooLong
  | invalidName
  | alreadyClosed
  | unlisted (message : Text)
  deriving DecidableEq, Repr

inductive Failure where
  | message (text : Text)
  | file (action : FileAction) (name : Text) (reason : FileReason)
  deriving DecidableEq, Repr

def FileAction.text : FileAction → Text
  | .opening => "open"
  | .reading => "read"

def FileReason.text : FileReason → Text
  | .noSuchFile => "no such file or directory"
  | .notDirectory => "not a directory"
  | .isDirectory => "is a directory"
  | .nameTooLong => "file name too long"
  | .invalidName => "invalid argument"
  | .alreadyClosed => "file already closed"
  | .unlisted message => message

namespace Failure

/-- An empty message is told as such. -/
def text : Failure → Text
  | .message t => if t = [] then "(no message)" else t
  | .file action name reason => action.text ++ " " ++ name ++ ": " ++ reason.text

def isNotExist : Failure → Bool
  | .file _ _ .noSuchFile => true
  | _ => false

end Failure
end IntLang
