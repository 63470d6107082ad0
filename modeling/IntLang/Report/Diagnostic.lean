import IntLang.Report.Error

/-! One line for the user: the file, the line if it is known, and what is wrong. -/
namespace IntLang

/-- Line 0 stands for an unknown line. -/
structure Diagnostic where
  file : Text
  line : Int
  message : Text
  deriving DecidableEq, Repr

namespace Diagnostic

def text (d : Diagnostic) : Text :=
  d.file ++ (if d.line = 0 then [] else ":" ++ Decimal.ofInt d.line : Text) ++ ": " ++ d.message

/-- A file that cannot be opened comes before a syntax error, and that before an error of names.
Any other error is told in full. -/
def ofError (file : Text) (e : Error) : Diagnostic :=
  match e.fileAccess? with
  | some (path, cause) => ⟨path, 0, cause.text⟩
  | none =>
    match e.syntaxError? with
    | some s => ⟨file, s.line, "syntax error: " ++ s.message⟩
    | none =>
      match e.semanticError? with
      | some s => ⟨file, s.line, s.name ++ ": " ++ s.message⟩
      | none => ⟨file, 0, e.text⟩

end Diagnostic
end IntLang
