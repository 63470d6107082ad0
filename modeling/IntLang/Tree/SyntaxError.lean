import IntLang.Token.Basic

/-! What can be wrong with the order of tokens. -/
namespace IntLang

/-- What the grammar asks for at a place. -/
inductive Expected where
  | statement
  | typeInt
  | identifier
  | semicolon
  | equals
  | expression
  | closing
  deriving DecidableEq, Repr

def Expected.text : Expected → Text
  | .statement => "statement"
  | .typeInt => "type 'int'"
  | .identifier => "identifier"
  | .semicolon => "';'"
  | .equals => "'='"
  | .expression => "expression"
  | .closing => "')'"

inductive SyntaxCause where
  | unexpected (want : Expected) (got : Token)
  | outOfRange (lexeme : Text)
  | reported (message : Text)
  deriving DecidableEq, Repr

structure SyntaxError where
  line : Int
  cause : SyntaxCause
  deriving DecidableEq, Repr

/-- A token in a message: its lexeme in quotes, but the end of file by name. -/
def Token.got (t : Token) : Text :=
  if t.kind = .endOfFile then "end of file" else Quoted.text t.lexeme

def SyntaxCause.message : SyntaxCause → Text
  | .unexpected want got => want.text ++ " expected, got " ++ got.got
  | .outOfRange lexeme => "integer literal out of range: " ++ lexeme
  | .reported message => message

def SyntaxError.message (e : SyntaxError) : Text := e.cause.message

def SyntaxError.text (e : SyntaxError) : Text :=
  "line " ++ Decimal.ofInt e.line ++ ": syntax error: " ++ e.message

end IntLang
