import IntLang.Scope.Basic
import IntLang.Token.Basic

/-! Syntax trees. Every node keeps the token it was made from. The type allows any nesting; a
parsed program uses only some of it. -/
namespace IntLang

structure Ident where
  tok : Token
  name : Text
  deriving DecidableEq, Repr

inductive Node where
  | program (tok : Token) (stmts : List Node)
  | ident (id : Ident)
  | int (tok : Token) (value : Int64)
  | binop (tok : Token) (op : Kind) (left right : Node)
  | assign (tok : Token) (target : Ident) (value : Node)
  | decl (tok : Token) (scope : Scope) (name : Ident) (init : Option Node)
  | print (tok : Token) (value : Node)
  | ret (tok : Token) (value : Option Node)
  /-- A node that is not looked at before code is written for it. -/
  | late (inner : Node)
  deriving Repr

/-- The body of the one function a source text describes. -/
structure Program where
  tok : Token
  stmts : List Node
  deriving Repr

def Program.node (p : Program) : Node := .program p.tok p.stmts

def Node.token : Node → Token
  | .program tok _ => tok
  | .ident id => id.tok
  | .int tok _ => tok
  | .binop tok _ _ _ => tok
  | .assign tok _ _ => tok
  | .decl tok _ _ _ => tok
  | .print tok _ => tok
  | .ret tok _ => tok
  | .late inner => inner.token

end IntLang
