import IntLang.Proofs.Tree.Source

/-! Other names and other lines. The parser looks at the kinds of tokens and at the lexemes of
literals only. So if identifiers get other names and all tokens other lines, the parse goes on as
before and its tree has the new names and lines in the places of the old ones. -/
namespace IntLang

/-- A new name for each name and a new line for each line. -/
structure Relabelling where
  name : Text → Text := id
  line : Int → Int := id

variable (ρ : Relabelling)

def Token.relabel (t : Token) : Token where
  kind := t.kind
  lexeme := if t.kind = .identifier then ρ.name t.lexeme else t.lexeme
  line := ρ.line t.line

def Ident.relabel (id : Ident) : Ident := ⟨id.tok.relabel ρ, ρ.name id.name⟩

mutual

def Node.relabel : Node → Node
  | .program tok stmts => .program (tok.relabel ρ) (relabelAll stmts)
  | .ident id => .ident (id.relabel ρ)
  | .int tok value => .int (tok.relabel ρ) value
  | .binop tok op left right => .binop (tok.relabel ρ) op left.relabel right.relabel
  | .assign tok target value => .assign (tok.relabel ρ) (target.relabel ρ) value.relabel
  | .decl tok scope name none => .decl (tok.relabel ρ) scope (name.relabel ρ) none
  | .decl tok scope name (some init) =>
    .decl (tok.relabel ρ) scope (name.relabel ρ) (some init.relabel)
  | .print tok value => .print (tok.relabel ρ) value.relabel
  | .ret tok none => .ret (tok.relabel ρ) none
  | .ret tok (some value) => .ret (tok.relabel ρ) (some value.relabel)
  | .late inner => .late inner.relabel

def relabelAll : List Node → List Node
  | [] => []
  | node :: rest => node.relabel :: relabelAll rest

end

theorem relabelAll_eq_map (ns : List Node) : relabelAll ρ ns = ns.map (Node.relabel ρ) := by
  induction ns with
  | nil => rfl
  | cons n ns ih => rw [relabelAll, ih, List.map_cons]

def Program.relabel (p : Program) : Program := ⟨p.tok.relabel ρ, p.stmts.map (Node.relabel ρ)⟩

/-- Nothing changes under the names and lines it has. -/
theorem Token.relabel_id (t : Token) : t.relabel {} = t := by
  simp [relabel]

theorem Ident.relabel_id (id : Ident) : id.relabel {} = id := by
  rw [relabel, Token.relabel_id]
  rfl

theorem relabelAll_id {ns : List Node} (h : ∀ n ∈ ns, n.relabel {} = n) : relabelAll {} ns = ns := by
  rw [relabelAll_eq_map, List.map_congr_left h, List.map_id']

theorem Node.relabel_id (n : Node) : n.relabel {} = n := by
  induction n using Node.induction with
  | program tok stmts ih => rw [relabel, relabelAll_id ih, tok.relabel_id]
  | ident id => rw [relabel, id.relabel_id]
  | int tok value => rw [relabel, tok.relabel_id]
  | binop tok op left right ihl ihr => rw [relabel, ihl, ihr, tok.relabel_id]
  | assign tok target value ih => rw [relabel, ih, tok.relabel_id, target.relabel_id]
  | declare tok scope name => rw [relabel, tok.relabel_id, name.relabel_id]
  | initialise tok scope name init ih => rw [relabel, ih, tok.relabel_id, name.relabel_id]
  | print tok value ih => rw [relabel, ih, tok.relabel_id]
  | ret tok => rw [relabel, tok.relabel_id]
  | retValue tok value ih => rw [relabel, ih, tok.relabel_id]
  | late inner ih => rw [relabel, ih]

theorem Program.node_relabel (p : Program) : (p.relabel ρ).node = p.node.relabel ρ := by
  rw [node, node, Node.relabel, relabelAll_eq_map, relabel]

namespace Token

@[simp] theorem kind_relabel (t : Token) : (t.relabel ρ).kind = t.kind := rfl

@[simp] theorem line_relabel (t : Token) : (t.relabel ρ).line = ρ.line t.line := rfl

variable {ρ}

/-- Only identifiers are spelled differently. -/
theorem lexeme_relabel {t : Token} (h : t.kind ≠ .identifier) :
    (t.relabel ρ).lexeme = t.lexeme := if_neg h

theorem ident_relabel {t : Token} (h : t.kind = .identifier) :
    (⟨t.relabel ρ, (t.relabel ρ).lexeme⟩ : Ident) = Ident.relabel ρ ⟨t, t.lexeme⟩ := by
  simp [relabel, Ident.relabel, h]

end Token

def SyntaxCause.relabel : SyntaxCause → SyntaxCause
  | .unexpected want got => .unexpected want (got.relabel ρ)
  | .outOfRange lexeme => .outOfRange lexeme
  | .reported message => .reported message

def SyntaxError.relabel (e : SyntaxError) : SyntaxError := ⟨ρ.line e.line, e.cause.relabel ρ⟩

/-- New lines alone leave every message as it is. -/
theorem SyntaxError.message_relabel {e : SyntaxError} (h : ρ.name = id) :
    (e.relabel ρ).message = e.message := by
  obtain ⟨line, cause⟩ := e
  cases cause with
  | unexpected want got =>
    have hgot : (got.relabel ρ).lexeme = got.lexeme := by simp [Token.relabel, h]
    simp only [message, relabel, SyntaxCause.relabel, SyntaxCause.message, Token.got, hgot,
      Token.kind_relabel]
  | outOfRange lexeme => rfl
  | reported message => rfl

def ParseError.relabel : ParseError → ParseError
  | .read f => .read f
  | .refused e => .refused (e.relabel ρ)

def TokenStop.relabel : TokenStop → TokenStop
  | .endOfFile line => .endOfFile (ρ.line line)
  | .failure f => .failure f

def TokenStream.relabel (s : TokenStream) : TokenStream :=
  ⟨s.tokens.map (Token.relabel ρ), s.stop.relabel ρ⟩

def Waiting.relabel (w : Waiting) : Waiting :=
  w.map fun (left, op) => (left.relabel ρ, op.relabel ρ)

def Level.relabel (level : Level) : Level :=
  ⟨Waiting.relabel ρ level.sum, Waiting.relabel ρ level.product⟩

def Goal.relabel : Goal → Goal
  | .declare keyword name => .declare (keyword.relabel ρ) (name.relabel ρ)
  | .assign target equals => .assign (target.relabel ρ) (equals.relabel ρ)
  | .print keyword => .print (keyword.relabel ρ)
  | .ret keyword => .ret (keyword.relabel ρ)

theorem Waiting.join_relabel (w : Waiting) (x : Node) :
    (Waiting.relabel ρ w).join (x.relabel ρ) = (Waiting.join w x).relabel ρ := by
  cases w with
  | none => rfl
  | some w => rw [Waiting.join, Node.relabel]; rfl

theorem Level.term_relabel (level : Level) (x : Node) :
    (level.relabel ρ).term (x.relabel ρ) = (level.term x).relabel ρ :=
  Waiting.join_relabel ρ level.product x

theorem Level.total_relabel (level : Level) (x : Node) :
    (level.relabel ρ).total (x.relabel ρ) = (level.total x).relabel ρ := by
  rw [Level.total, Level.term_relabel]
  exact Waiting.join_relabel ρ level.sum (level.term x)

theorem Goal.finish_relabel (goal : Goal) (x : Node) :
    (goal.relabel ρ).finish (x.relabel ρ) = (goal.finish x).relabel ρ := by
  cases goal <;> rw [Goal.finish, Node.relabel] <;> rfl

/-- A result or an error, each with its own change. -/
def mapResult {ε α : Type} (onError : ε → ε) (onOk : α → α) : Except ε α → Except ε α
  | .ok a => .ok (onOk a)
  | .error e => .error (onError e)

namespace Parser

def State.relabel : State → State
  | .statement => .statement
  | .typeWord keyword => .typeWord (keyword.relabel ρ)
  | .name keyword => .name (keyword.relabel ρ)
  | .named keyword id => .named (keyword.relabel ρ) (id.relabel ρ)
  | .target id => .target (id.relabel ρ)
  | .returned keyword => .returned (keyword.relabel ρ)
  | .operand goal level outer =>
    .operand (goal.relabel ρ) (level.relabel ρ) (outer.map (Level.relabel ρ))
  | .operator goal level outer x =>
    .operator (goal.relabel ρ) (level.relabel ρ) (outer.map (Level.relabel ρ)) (x.relabel ρ)

theorem State.expected_relabel (s : State) : (s.relabel ρ).expected = s.expected := by
  cases s with
  | operator goal level outer x => cases outer <;> rfl
  | _ => rfl

def Move.relabel : Move → Move
  | .state s => .state (s.relabel ρ)
  | .complete stmt => .complete (stmt.relabel ρ)

/-- What a token leads to, or the error about it, relabelled. -/
abbrev relabelMove : Except SyntaxError Move → Except SyntaxError Move :=
  mapResult (SyntaxError.relabel ρ) (Move.relabel ρ)

theorem refuse_relabel (s : State) (t : Token) :
    refuse (s.relabel ρ) (t.relabel ρ) = relabelMove ρ (refuse s t) := by
  rw [refuse, s.expected_relabel]
  rfl

theorem onStatement_relabel (t : Token) :
    onStatement (t.relabel ρ) = relabelMove ρ (onStatement t) := by
  unfold onStatement
  rw [Token.kind_relabel]
  split
  · rfl
  · rfl
  · rename_i hk
    rw [Token.ident_relabel hk]
    rfl
  · rfl
  · rfl
  · exact refuse_relabel ρ .statement t

theorem onOperand_relabel (goal : Goal) (level : Level) (outer : List Level) (t : Token) :
    onOperand (goal.relabel ρ) (level.relabel ρ) (outer.map (Level.relabel ρ)) (t.relabel ρ) =
      relabelMove ρ (onOperand goal level outer t) := by
  unfold onOperand
  rw [Token.kind_relabel]
  split
  · rename_i hk
    rw [Token.lexeme_relabel (by simp [hk])]
    cases Decimal.word? t.lexeme with
    | some v => simp only [mapResult, Move.relabel, State.relabel, Node.relabel]
    | none => rfl
  split
  · rename_i hk
    rw [Token.ident_relabel hk]
    simp only [mapResult, Move.relabel, State.relabel, Node.relabel]
  split
  · rfl
  · exact refuse_relabel ρ (.operand goal level outer) t

theorem onOperator_relabel (goal : Goal) (level : Level) (outer : List Level) (x : Node)
    (t : Token) :
    onOperator (goal.relabel ρ) (level.relabel ρ) (outer.map (Level.relabel ρ)) (x.relabel ρ)
      (t.relabel ρ) = relabelMove ρ (onOperator goal level outer x t) := by
  unfold onOperator
  rw [Token.kind_relabel, Level.term_relabel, Level.total_relabel]
  split
  · rfl
  split
  · rfl
  cases outer with
  | nil =>
    simp only [List.map_nil, Goal.finish_relabel]
    split
    · rfl
    · exact refuse_relabel ρ (.operator goal level [] x) t
  | cons around rest =>
    simp only [List.map_cons]
    split
    · rfl
    · exact refuse_relabel ρ (.operator goal level (around :: rest) x) t

/-- One token leads to the relabelled place. -/
theorem step_relabel (s : State) (t : Token) :
    step (s.relabel ρ) (t.relabel ρ) = relabelMove ρ (step s t) := by
  cases s with
  | statement => exact onStatement_relabel ρ t
  | typeWord keyword =>
    rw [State.relabel, step, step, Token.kind_relabel]
    split
    · rfl
    · exact refuse_relabel ρ (.typeWord keyword) t
  | name keyword =>
    rw [State.relabel, step, step, Token.kind_relabel]
    split
    · rename_i hk
      rw [Token.ident_relabel hk]
      rfl
    · exact refuse_relabel ρ (.name keyword) t
  | named keyword name =>
    rw [State.relabel, step, step, Token.kind_relabel]
    split
    · rfl
    split
    · simp only [mapResult, Move.relabel, Node.relabel]
      rfl
    · exact refuse_relabel ρ (.named keyword name) t
  | target name =>
    rw [State.relabel, step, step, Token.kind_relabel]
    split
    · rfl
    · exact refuse_relabel ρ (.target name) t
  | returned keyword =>
    rw [State.relabel, step, step, Token.kind_relabel]
    split
    · simp only [mapResult, Move.relabel, Node.relabel]
    · exact onOperand_relabel ρ (.ret keyword) {} [] t
  | operand goal level outer => exact onOperand_relabel ρ goal level outer t
  | operator goal level outer x => exact onOperator_relabel ρ goal level outer x t

end Parser

def Parser.relabel (p : Parser) : Parser :=
  ⟨p.first.map (Token.relabel ρ), p.done.map (Node.relabel ρ), p.state.relabel ρ⟩

/-- The result of a parse, relabelled. -/
abbrev relabelParse : Except ParseError Program → Except ParseError Program :=
  mapResult (ParseError.relabel ρ) (Program.relabel ρ)

namespace Parser

theorem feed_relabel (p : Parser) (t : Token) : (p.relabel ρ).feed (t.relabel ρ) =
    mapResult (SyntaxError.relabel ρ) (Parser.relabel ρ) (p.feed t) := by
  have hfirst : (p.first.map (Token.relabel ρ)).or (some (t.relabel ρ)) =
      (p.first.or (some t)).map (Token.relabel ρ) := by cases p.first <;> rfl
  simp only [feed, Parser.relabel, step_relabel, hfirst]
  cases step p.state t with
  | error e => rfl
  | ok move => cases move <;> rfl

theorem finish_relabel (p : Parser) (t : Token) :
    (p.relabel ρ).finish (t.relabel ρ) = relabelParse ρ (p.finish t) := by
  obtain ⟨first, done, state⟩ := p
  have hrefuse (hs : state ≠ .statement) : finish ⟨first, done, state⟩ t =
      .error (.refused ⟨t.line, .unexpected state.expected t⟩) := by
    unfold finish
    split
    · exact absurd (by assumption) hs
    · rfl
  cases state with
  | statement =>
    simp only [finish, Parser.relabel, State.relabel, mapResult, Program.relabel, List.map_reverse]
    cases first <;> rfl
  | operator goal level outer x =>
    rw [hrefuse (by simp)]
    cases outer <;> rfl
  | _ =>
    rw [hrefuse (by simp)]
    rfl

/-- A whole run is that of the original tokens, relabelled. -/
theorem run_relabel (p : Parser) (taken : Nat) (stop : TokenStop) (ts : List Token) :
    ((p.relabel ρ).run taken (stop.relabel ρ) (ts.map (Token.relabel ρ))).result =
      relabelParse ρ (p.run taken stop ts).result := by
  induction ts generalizing p taken with
  | nil =>
    cases stop with
    | endOfFile line => exact finish_relabel ρ p (.endOfFile line)
    | failure f => rfl
  | cons t ts ih =>
    rw [List.map_cons, run, run, Token.kind_relabel]
    split
    · exact finish_relabel ρ p t
    · rw [feed_relabel]
      cases p.feed t with
      | error e => rfl
      | ok q => exact ih q (taken + 1)

end Parser

theorem TokenStream.parse_relabel (s : TokenStream) :
    (s.relabel ρ).parse.result = relabelParse ρ s.parse.result :=
  Parser.run_relabel ρ {} 0 s.stop s.tokens

end IntLang
