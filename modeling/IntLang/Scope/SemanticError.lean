import IntLang.Misuse

/-! What can be wrong with the names of a program. -/
namespace IntLang

inductive SemanticCause where
  | undeclared
  | unknown
  | globalRedeclared (line : Int)
  | localRedeclared (line : Int)
  | globalHitsLocal (line : Int)
  | localHitsGlobal (line : Int)
  | reported (message : Text)
  deriving DecidableEq, Repr

structure SemanticError where
  line : Int
  name : Text
  cause : SemanticCause
  deriving DecidableEq, Repr

def SemanticCause.message : SemanticCause → Text
  | .undeclared => "undeclared variable"
  | .unknown => "unknown variable"
  | .globalRedeclared line =>
    "global redeclared (previous declaration at line " ++ Decimal.ofInt line ++ ")"
  | .localRedeclared line =>
    "local redeclared (previous declaration at line " ++ Decimal.ofInt line ++ ")"
  | .globalHitsLocal line => "global conflicts with local declared at line " ++ Decimal.ofInt line
  | .localHitsGlobal line => "local conflicts with global declared at line " ++ Decimal.ofInt line
  | .reported message => message

def SemanticError.message (e : SemanticError) : Text := e.cause.message

def SemanticError.text (e : SemanticError) : Text :=
  "line " ++ Decimal.ofInt e.line ++ ": " ++ e.name ++ ": " ++ e.message

/-- Why a pass over a program stops early. -/
inductive Halt where
  | rejected (e : SemanticError)
  | misused (m : Misuse)
  deriving DecidableEq, Repr

end IntLang
