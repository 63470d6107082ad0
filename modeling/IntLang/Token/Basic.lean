import IntLang.Token.Kind

/-! Tokens: a kind, the text it was written as, and the line it ends on. -/
namespace IntLang

structure Token where
  kind : Kind
  lexeme : Text
  line : Int
  deriving DecidableEq, Repr

namespace Token

/-- What stands in for a token that could not be read. -/
def zero : Token := ⟨.single 0, [], 0⟩

def endOfFile (line : Int) : Token := ⟨.endOfFile, "EOF", line⟩

/-- The kind and the line; literals and identifiers also show what was written. -/
def text (t : Token) : Text :=
  let place := "@" ++ Decimal.ofInt t.line
  match t.kind with
  | .intLiteral | .identifier => t.kind.text ++ "(" ++ Quoted.text t.lexeme ++ ")" ++ place
  | _ => t.kind.text ++ place

end Token
end IntLang
