import IntLang.Token.Scan
import IntLang.Tree.Basic
import IntLang.Tree.SyntaxError

/-! An incremental parser. Its state after some tokens says what of a statement has been read and
what may come next; each token moves the state on or is refused. Sums and products group to the
left, and parentheses leave no node. -/
namespace IntLang

/-- A left operand with the operator after it, which wait for the right operand. -/
abbrev Waiting := Option (Node × Token)

def Waiting.join : Waiting → Node → Node
  | none, x => x
  | some (left, op), x => .binop op op.kind left x

/-- What has been read inside one pair of parentheses. -/
structure Level where
  sum : Waiting := none
  product : Waiting := none

/-- The product that an operand completes. -/
def Level.term (level : Level) (x : Node) : Node := level.product.join x

/-- The sum that an operand completes. -/
def Level.total (level : Level) (x : Node) : Node := level.sum.join (level.term x)

/-- The statement an expression belongs to, read up to that expression. -/
inductive Goal where
  | declare (keyword : Token) (name : Ident)
  | assign (target : Ident) (equals : Token)
  | print (keyword : Token)
  | ret (keyword : Token)

def declScope (keyword : Token) : Scope :=
  if keyword.kind = .keyword .globalWord then .globalVar else .localVar

def Goal.finish : Goal → Node → Node
  | .declare keyword name, x => .decl keyword (declScope keyword) name (some x)
  | .assign target equals, x => .assign equals target x
  | .print keyword, x => .print keyword x
  | .ret keyword, x => .ret keyword (some x)

namespace Parser

/-- The place between two tokens. -/
inductive State where
  /-- Between statements. -/
  | statement
  /-- After `global` or `local`. -/
  | typeWord (keyword : Token)
  /-- After the type of a declaration. -/
  | name (keyword : Token)
  /-- After the name of a declaration. -/
  | named (keyword : Token) (name : Ident)
  /-- After the name that starts an assignment. -/
  | target (name : Ident)
  /-- After `return`. -/
  | returned (keyword : Token)
  /-- Where an operand must come. -/
  | operand (goal : Goal) (level : Level) (outer : List Level)
  /-- After an operand. -/
  | operator (goal : Goal) (level : Level) (outer : List Level) (x : Node)

/-- What is missing at a place, as it is told to the user. -/
def State.expected : State → Expected
  | .statement => .statement
  | .typeWord _ => .typeInt
  | .name _ => .identifier
  | .named _ _ => .semicolon
  | .target _ => .equals
  | .returned _ => .expression
  | .operand _ _ _ => .expression
  | .operator _ _ [] _ => .semicolon
  | .operator _ _ (_ :: _) _ => .closing

/-- Where a token leads: on inside a statement, or to its end. -/
inductive Move where
  | state (s : State)
  | complete (stmt : Node)

def refuse (s : State) (t : Token) : Except SyntaxError Move :=
  .error ⟨t.line, .unexpected s.expected t⟩

def onStatement (t : Token) : Except SyntaxError Move :=
  match t.kind with
  | .keyword .globalWord => .ok (.state (.typeWord t))
  | .keyword .localWord => .ok (.state (.typeWord t))
  | .identifier => .ok (.state (.target ⟨t, t.lexeme⟩))
  | .keyword .printWord => .ok (.state (.operand (.print t) {} []))
  | .keyword .returnWord => .ok (.state (.returned t))
  | _ => refuse .statement t

def onOperand (goal : Goal) (level : Level) (outer : List Level) (t : Token) :
    Except SyntaxError Move :=
  if t.kind = .intLiteral then
    match Decimal.word? t.lexeme with
    | some v => .ok (.state (.operator goal level outer (.int t v)))
    | none => .error ⟨t.line, .outOfRange t.lexeme⟩
  else if t.kind = .identifier then
    .ok (.state (.operator goal level outer (.ident ⟨t, t.lexeme⟩)))
  else if t.kind = .char '(' then .ok (.state (.operand goal {} (level :: outer)))
  else refuse (.operand goal level outer) t

def onOperator (goal : Goal) (level : Level) (outer : List Level) (x : Node) (t : Token) :
    Except SyntaxError Move :=
  if t.kind = .char '*' ∨ t.kind = .char '/' then
    .ok (.state (.operand goal { level with product := some (level.term x, t) } outer))
  else if t.kind = .char '+' ∨ t.kind = .char '-' then
    .ok (.state (.operand goal { sum := some (level.total x, t) } outer))
  else match outer with
    | [] =>
      if t.kind = .char ';' then .ok (.complete (goal.finish (level.total x)))
      else refuse (.operator goal level [] x) t
    | around :: rest =>
      if t.kind = .char ')' then .ok (.state (.operator goal around rest (level.total x)))
      else refuse (.operator goal level (around :: rest) x) t

def step (s : State) (t : Token) : Except SyntaxError Move :=
  match s with
  | .statement => onStatement t
  | .typeWord keyword =>
    if t.kind = .keyword .intWord then .ok (.state (.name keyword)) else refuse s t
  | .name keyword =>
    if t.kind = .identifier then .ok (.state (.named keyword ⟨t, t.lexeme⟩)) else refuse s t
  | .named keyword name =>
    if t.kind = .char '=' then .ok (.state (.operand (.declare keyword name) {} []))
    else if t.kind = .char ';' then .ok (.complete (.decl keyword (declScope keyword) name none))
    else refuse s t
  | .target name =>
    if t.kind = .char '=' then .ok (.state (.operand (.assign name t) {} [])) else refuse s t
  | .returned keyword =>
    if t.kind = .char ';' then .ok (.complete (.ret keyword none))
    else onOperand (.ret keyword) {} [] t
  | .operand goal level outer => onOperand goal level outer t
  | .operator goal level outer x => onOperator goal level outer x t

end Parser

/-- A parser under way: the first token of the input, the complete statements, latest first, and
the place in the present one. -/
structure Parser where
  first : Option Token := none
  done : List Node := []
  state : Parser.State := .statement

inductive ParseError where
  | read (f : Failure)
  | refused (e : SyntaxError)
  deriving DecidableEq, Repr

/-- The end of a parse: its result, the number of tokens it asked for, and the last of them. -/
structure ParseOutcome where
  result : Except ParseError Program
  taken : Nat
  last : Token

namespace Parser

/-- Take one token that is not the end of file. -/
def feed (p : Parser) (t : Token) : Except SyntaxError Parser :=
  match step p.state t with
  | .error e => .error e
  | .ok (.state s) => .ok { p with first := p.first.or (some t), state := s }
  | .ok (.complete stmt) =>
    .ok { first := p.first.or (some t), done := stmt :: p.done, state := .statement }

/-- At the end of file a program is complete, unless a statement is under way. -/
def finish (p : Parser) (t : Token) : Except ParseError Program :=
  match p.state with
  | .statement => .ok ⟨p.first.getD t, p.done.reverse⟩
  | s => .error (.refused ⟨t.line, .unexpected s.expected t⟩)

/-- The parse from here on, after some tokens were taken. -/
def run (p : Parser) (taken : Nat) (stop : TokenStop) : List Token → ParseOutcome
  | [] =>
    match stop with
    | .endOfFile line =>
      ⟨p.finish (Token.endOfFile line), taken + 1, Token.endOfFile line⟩
    | .failure f => ⟨.error (.read f), taken + 1, Token.zero⟩
  | t :: rest =>
    if t.kind = .endOfFile then ⟨p.finish t, taken + 1, t⟩
    else match p.feed t with
      | .error e => ⟨.error (.refused e), taken + 1, t⟩
      | .ok p => p.run (taken + 1) stop rest

end Parser

namespace TokenStream

/-- Tokens and failures one after another, then end-of-file tokens on the last line. A parse
never goes past the first failure, so the stream ends there. -/
def ofResults : List (Except Failure Token) → (line : Int) → TokenStream
  | [], line => ⟨[], .endOfFile line⟩
  | .error f :: _, _ => ⟨[], .failure f⟩
  | .ok t :: rest, _ =>
    let later := ofResults rest t.line
    ⟨t :: later.tokens, later.stop⟩

def parse (s : TokenStream) : ParseOutcome := Parser.run {} 0 s.stop s.tokens

end TokenStream

/-- Parse all that a reader gives. -/
def Reader.parse (r : Reader) : ParseOutcome := r.scan.1.parse

end IntLang
