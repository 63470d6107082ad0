import IntLang.Tree.Parse

/-! The grammar of programs, as a relation between tokens and trees. A chain of operators of one
rank groups to the left, and parentheses leave no node of their own. -/
namespace IntLang

/-- The ranks of expressions, from the tightest to the loosest. -/
inductive Rank where
  | factor
  | term
  | sum
  deriving DecidableEq, Repr

def Kind.IsProductSign (k : Kind) : Prop := k = .char '*' ∨ k = .char '/'

def Kind.IsSumSign (k : Kind) : Prop := k = .char '+' ∨ k = .char '-'

/-- The tokens spell an expression of a rank, and its tree is `x`. A literal is one only if its
value fits a word. -/
inductive Spells : Rank → List Token → Node → Prop
  | int {t : Token} {v : Int64} (kind : t.kind = .intLiteral)
      (fits : Decimal.word? t.lexeme = some v) : Spells .factor [t] (.int t v)
  | ident {t : Token} (kind : t.kind = .identifier) : Spells .factor [t] (.ident ⟨t, t.lexeme⟩)
  | parens {o c : Token} {ts : List Token} {x : Node} (opening : o.kind = .char '(')
      (inner : Spells .sum ts x) (closing : c.kind = .char ')') :
      Spells .factor (o :: ts ++ [c]) x
  | ofFactor {ts : List Token} {x : Node} (h : Spells .factor ts x) : Spells .term ts x
  | product {ts us : List Token} {op : Token} {x y : Node} (left : Spells .term ts x)
      (sign : op.kind.IsProductSign) (right : Spells .factor us y) :
      Spells .term (ts ++ op :: us) (.binop op op.kind x y)
  | ofTerm {ts : List Token} {x : Node} (h : Spells .term ts x) : Spells .sum ts x
  | sum {ts us : List Token} {op : Token} {x y : Node} (left : Spells .sum ts x)
      (sign : op.kind.IsSumSign) (right : Spells .term us y) :
      Spells .sum (ts ++ op :: us) (.binop op op.kind x y)

/-- The word that starts a declaration says where the variable lives. -/
inductive DeclarationWord : Kind → Scope → Prop
  | globalWord : DeclarationWord (.keyword .globalWord) .globalVar
  | localWord : DeclarationWord (.keyword .localWord) .localVar

/-- The tokens spell one statement, and its tree is `x`. -/
inductive SpellsStatement : List Token → Node → Prop
  | declare {k i n e : Token} {scope : Scope} (word : DeclarationWord k.kind scope)
      (type : i.kind = .keyword .intWord) (name : n.kind = .identifier)
      (ending : e.kind = .char ';') :
      SpellsStatement [k, i, n, e] (.decl k scope ⟨n, n.lexeme⟩ none)
  | initialise {k i n q e : Token} {scope : Scope} {ts : List Token} {x : Node}
      (word : DeclarationWord k.kind scope) (type : i.kind = .keyword .intWord)
      (name : n.kind = .identifier) (equals : q.kind = .char '=') (init : Spells .sum ts x)
      (ending : e.kind = .char ';') :
      SpellsStatement ([k, i, n, q] ++ ts ++ [e]) (.decl k scope ⟨n, n.lexeme⟩ (some x))
  | assign {n q e : Token} {ts : List Token} {x : Node} (name : n.kind = .identifier)
      (equals : q.kind = .char '=') (value : Spells .sum ts x) (ending : e.kind = .char ';') :
      SpellsStatement ([n, q] ++ ts ++ [e]) (.assign q ⟨n, n.lexeme⟩ x)
  | print {k e : Token} {ts : List Token} {x : Node} (word : k.kind = .keyword .printWord)
      (value : Spells .sum ts x) (ending : e.kind = .char ';') :
      SpellsStatement ([k] ++ ts ++ [e]) (.print k x)
  | ret {k e : Token} (word : k.kind = .keyword .returnWord) (ending : e.kind = .char ';') :
      SpellsStatement [k, e] (.ret k none)
  | retValue {k e : Token} {ts : List Token} {x : Node} (word : k.kind = .keyword .returnWord)
      (value : Spells .sum ts x) (ending : e.kind = .char ';') :
      SpellsStatement ([k] ++ ts ++ [e]) (.ret k (some x))

/-- The tokens spell statements one after another. -/
inductive SpellsStatements : List Token → List Node → Prop
  | nil : SpellsStatements [] []
  | cons {ts us : List Token} {x : Node} {xs : List Node} (first : SpellsStatement ts x)
      (rest : SpellsStatements us xs) : SpellsStatements (ts ++ us) (x :: xs)

/-- The tokens, with the end of file as the last of them, spell a whole program. Its own token is
the first of them. -/
inductive SpellsProgram : List Token → Program → Prop
  | intro {ts : List Token} {e t : Token} {xs : List Node} (body : SpellsStatements ts xs)
      (ending : e.kind = .endOfFile) (first : (ts ++ [e]).head? = some t) :
      SpellsProgram (ts ++ [e]) ⟨t, xs⟩

theorem SpellsStatements.append {ts us : List Token} {xs ys : List Node}
    (h : SpellsStatements ts xs) (h' : SpellsStatements us ys) :
    SpellsStatements (ts ++ us) (xs ++ ys) := by
  induction h with
  | nil => exact h'
  | cons first _ ih =>
    rw [List.append_assoc, List.cons_append]
    exact .cons first ih

/-- What an expression may start with. -/
theorem Spells.starts {rank : Rank} {ts : List Token} {x : Node} (h : Spells rank ts x) :
    ∃ t rest, ts = t :: rest ∧
      (t.kind = .intLiteral ∨ t.kind = .identifier ∨ t.kind = .char '(') := by
  induction h with
  | int kind _ => exact ⟨_, _, rfl, .inl kind⟩
  | ident kind => exact ⟨_, _, rfl, .inr (.inl kind)⟩
  | parens opening _ _ => exact ⟨_, _, rfl, .inr (.inr opening)⟩
  | ofFactor _ ih => exact ih
  | product _ _ _ ih _ =>
    obtain ⟨t, rest, rfl, ht⟩ := ih
    exact ⟨t, _, rfl, ht⟩
  | ofTerm _ ih => exact ih
  | sum _ _ _ ih _ =>
    obtain ⟨t, rest, rfl, ht⟩ := ih
    exact ⟨t, _, rfl, ht⟩

end IntLang
