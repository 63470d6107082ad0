import IntLang.Scope.Basic
import IntLang.Token.Kind

/-! Broken calling rules. These are faults of the caller, not errors in a source program: no
program the parser accepts leads to one. -/
namespace IntLang

inductive Misuse where
  | blankCodeTooHigh
  | builderFinished
  | frameNotFixed
  | notGlobal (name : Text)
  | noGlobal (name : Text)
  | noLocal (name : Text)
  | badScope (scope : Scope)
  | badOperator (kind : Kind)
  deriving DecidableEq, Repr

def Misuse.message : Misuse → Text
  | .blankCodeTooHigh => "too high char code"
  | .builderFinished => "symtab: frame builder used after Finish"
  | .frameNotFixed => "symtab: frame not produced by Builder.Finish"
  | .notGlobal name => "symtab: " ++ Quoted.text name ++ " is a local, not a global"
  | .noGlobal name => "symtab: no global " ++ Quoted.text name
  | .noLocal name => "symtab: no local " ++ Quoted.text name
  | .badScope scope => scope.text
  | .badOperator kind => kind.text

end IntLang
