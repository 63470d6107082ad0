import IntLang.Proofs.Tree.Parsing

/-! The trees of source programs. The node type allows any nesting; what the parser gives is a
list of statements whose parts are expressions, and every name in it is the lexeme of an
identifier of the input. -/
namespace IntLang

/-- Induction on trees, with the hypothesis for every statement of a program. -/
@[elab_as_elim]
theorem Node.induction {P : Node → Prop}
    (program : ∀ tok stmts, (∀ n ∈ stmts, P n) → P (.program tok stmts))
    (ident : ∀ id, P (.ident id)) (int : ∀ tok value, P (.int tok value))
    (binop : ∀ tok op left right, P left → P right → P (.binop tok op left right))
    (assign : ∀ tok target value, P value → P (.assign tok target value))
    (declare : ∀ tok scope name, P (.decl tok scope name none))
    (initialise : ∀ tok scope name init, P init → P (.decl tok scope name (some init)))
    (print : ∀ tok value, P value → P (.print tok value)) (ret : ∀ tok, P (.ret tok none))
    (retValue : ∀ tok value, P value → P (.ret tok (some value)))
    (late : ∀ inner, P inner → P (.late inner)) (n : Node) : P n := by
  refine @Node.rec P (fun ns => ∀ n ∈ ns, P n) (fun o => ∀ n, o = some n → P n)
    program ident int binop assign ?_ print ?_ late ?_ ?_ ?_ ?_ n
  · intro tok scope name init ih
    cases init with
    | none => exact declare tok scope name
    | some init => exact initialise tok scope name init (ih init rfl)
  · intro tok value ih
    cases value with
    | none => exact ret tok
    | some value => exact retValue tok value (ih value rfl)
  · intro n hn
    cases hn
  · intro head tail hh ht n hn
    rcases List.mem_cons.mp hn with rfl | hn
    · exact hh
    · exact ht n hn
  · intro n hn
    cases hn
  · intro val hv n hn
    cases hn
    exact hv

inductive Operator where
  | add
  | sub
  | mul
  | div
  deriving DecidableEq, Repr

def Operator.kind : Operator → Kind
  | .add => .char '+'
  | .sub => .char '-'
  | .mul => .char '*'
  | .div => .char '/'

inductive Expr where
  | int (tok : Token) (value : Int64)
  | var (id : Ident)
  | binary (tok : Token) (op : Operator) (left right : Expr)
  deriving DecidableEq, Repr

/-- The two places a program can ask for. -/
inductive Storage where
  | globalVar
  | localVar
  deriving DecidableEq, Repr

def Storage.scope : Storage → Scope
  | .globalVar => .globalVar
  | .localVar => .localVar

inductive Stmt where
  | declare (tok : Token) (storage : Storage) (name : Ident) (init : Option Expr)
  | assign (tok : Token) (target : Ident) (value : Expr)
  | print (tok : Token) (value : Expr)
  | ret (tok : Token) (value : Option Expr)
  deriving DecidableEq, Repr

def Expr.node : Expr → Node
  | .int tok value => .int tok value
  | .var id => .ident id
  | .binary tok op left right => .binop tok op.kind left.node right.node

def Stmt.node : Stmt → Node
  | .declare tok storage name init => .decl tok storage.scope name (init.map Expr.node)
  | .assign tok target value => .assign tok target value.node
  | .print tok value => .print tok value.node
  | .ret tok value => .ret tok (value.map Expr.node)

theorem Operator.kind_inj {op op' : Operator} (h : op.kind = op'.kind) : op = op' := by
  cases op <;> cases op' <;> first | rfl | exact absurd h (by decide)

theorem Expr.node_inj (e f : Expr) (h : e.node = f.node) : e = f := by
  induction e generalizing f with
  | int tok value =>
    cases f <;> cases h
    rfl
  | var id =>
    cases f <;> cases h
    rfl
  | binary tok op left right ihl ihr =>
    cases f with
    | int _ _ => cases h
    | var _ => cases h
    | binary tok' op' left' right' =>
      obtain ⟨rfl, hop, hl, hr⟩ := Node.binop.inj h
      rw [Operator.kind_inj hop, ihl _ hl, ihr _ hr]

/-- A tree is that of one statement only. -/
theorem Stmt.node_inj (st st' : Stmt) (h : st.node = st'.node) : st = st' := by
  cases st <;> cases st' <;> simp only [node, reduceCtorEq, Node.decl.injEq, Node.assign.injEq,
    Node.print.injEq, Node.ret.injEq, Option.map_inj_right Expr.node_inj] at h
  case declare storage _ _ _ storage' _ _ =>
    obtain ⟨rfl, hs, rfl, rfl⟩ := h
    cases storage <;> cases storage' <;> first | rfl | cases hs
  case assign =>
    obtain ⟨rfl, rfl, hv⟩ := h
    rw [Expr.node_inj _ _ hv]
  case print =>
    obtain ⟨rfl, hv⟩ := h
    rw [Expr.node_inj _ _ hv]
  case ret =>
    obtain ⟨rfl, rfl⟩ := h
    rfl

def Expr.idents : Expr → List Ident
  | .int _ _ => []
  | .var id => [id]
  | .binary _ _ left right => left.idents ++ right.idents

def Stmt.idents : Stmt → List Ident
  | .declare _ _ name init => name :: init.elim [] Expr.idents
  | .assign _ target value => target :: value.idents
  | .print _ value => value.idents
  | .ret _ value => value.elim [] Expr.idents

/-- The identifier is the name of a token among these. -/
def Ident.WrittenIn (id : Ident) (ts : List Token) : Prop :=
  ∃ t ∈ ts, t.kind = .identifier ∧ id = ⟨t, t.lexeme⟩

theorem Ident.WrittenIn.mono {id : Ident} {ts us : List Token} (h : id.WrittenIn ts)
    (hs : ts ⊆ us) : id.WrittenIn us := by
  obtain ⟨t, ht, hk, hid⟩ := h
  exact ⟨t, hs ht, hk, hid⟩

theorem Kind.IsProductSign.exists_operator {k : Kind} (h : k.IsProductSign) :
    ∃ op : Operator, k = op.kind := by
  rcases h with rfl | rfl
  · exact ⟨.mul, rfl⟩
  · exact ⟨.div, rfl⟩

theorem Kind.IsSumSign.exists_operator {k : Kind} (h : k.IsSumSign) :
    ∃ op : Operator, k = op.kind := by
  rcases h with rfl | rfl
  · exact ⟨.add, rfl⟩
  · exact ⟨.sub, rfl⟩

/-- The tree is that of an expression whose names are written in the tokens. -/
def IsExprOf (ts : List Token) (x : Node) : Prop :=
  ∃ e : Expr, e.node = x ∧ ∀ id ∈ e.idents, id.WrittenIn ts

theorem IsExprOf.binary {ts us : List Token} {op : Token} {x y : Node} (hx : IsExprOf ts x)
    (hop : ∃ o : Operator, op.kind = o.kind) (hy : IsExprOf us y) :
    IsExprOf (ts ++ op :: us) (.binop op op.kind x y) := by
  obtain ⟨e, rfl, he⟩ := hx
  obtain ⟨f, rfl, hf⟩ := hy
  obtain ⟨o, ho⟩ := hop
  refine ⟨.binary op o e f, by rw [Expr.node, ho], ?_⟩
  intro id hid
  rcases List.mem_append.mp hid with hid | hid
  · exact (he id hid).mono (by simp)
  · exact (hf id hid).mono (by intro t ht; simp [ht])

theorem Spells.isExprOf {rank : Rank} {ts : List Token} {x : Node} (h : Spells rank ts x) :
    IsExprOf ts x := by
  induction h with
  | @int t v kind _ => exact ⟨.int t v, rfl, by simp [Expr.idents]⟩
  | @ident t kind =>
    refine ⟨.var ⟨t, t.lexeme⟩, rfl, ?_⟩
    intro id hid
    exact ⟨t, by simp, kind, by simpa [Expr.idents] using hid⟩
  | parens _ _ _ ih =>
    obtain ⟨e, he, hid⟩ := ih
    exact ⟨e, he, fun id h => (hid id h).mono (by intro t ht; simp [ht])⟩
  | ofFactor _ ih => exact ih
  | product _ sign _ ihl ihr => exact ihl.binary sign.exists_operator ihr
  | ofTerm _ ih => exact ih
  | sum _ sign _ ihl ihr => exact ihl.binary sign.exists_operator ihr

theorem DeclarationWord.exists_storage {k : Kind} {scope : Scope} (h : DeclarationWord k scope) :
    ∃ storage : Storage, scope = storage.scope := by
  cases h with
  | globalWord => exact ⟨.globalVar, rfl⟩
  | localWord => exact ⟨.localVar, rfl⟩

/-- The tree is that of a statement whose names are written in the tokens. -/
def IsStmtOf (ts : List Token) (x : Node) : Prop :=
  ∃ s : Stmt, s.node = x ∧ ∀ id ∈ s.idents, id.WrittenIn ts

theorem SpellsStatement.isStmtOf {ts : List Token} {x : Node} (h : SpellsStatement ts x) :
    IsStmtOf ts x := by
  have inside {us vs : List Token} {e : Expr} (he : ∀ id ∈ e.idents, id.WrittenIn us)
      (hs : us ⊆ vs) : ∀ id ∈ e.idents, id.WrittenIn vs := fun id h => (he id h).mono hs
  cases h with
  | @declare k i n e scope word _ name _ =>
    obtain ⟨storage, rfl⟩ := word.exists_storage
    refine ⟨.declare k storage ⟨n, n.lexeme⟩ none, rfl, ?_⟩
    intro id hid
    exact ⟨n, by simp, name, by simpa [Stmt.idents] using hid⟩
  | @initialise k i n q e scope ts x word _ name _ init _ =>
    obtain ⟨storage, rfl⟩ := word.exists_storage
    obtain ⟨v, rfl, hv⟩ := init.isExprOf
    refine ⟨.declare k storage ⟨n, n.lexeme⟩ (some v), rfl, ?_⟩
    intro id hid
    rcases List.mem_cons.mp hid with rfl | hid
    · exact ⟨n, by simp, name, rfl⟩
    · exact inside hv (by intro t ht; simp [ht]) id hid
  | @assign n q e ts x name _ value _ =>
    obtain ⟨v, rfl, hv⟩ := value.isExprOf
    refine ⟨.assign q ⟨n, n.lexeme⟩ v, rfl, ?_⟩
    intro id hid
    rcases List.mem_cons.mp hid with rfl | hid
    · exact ⟨n, by simp, name, rfl⟩
    · exact inside hv (by intro t ht; simp [ht]) id hid
  | @print k e ts x _ value _ =>
    obtain ⟨v, rfl, hv⟩ := value.isExprOf
    exact ⟨.print k v, rfl, inside hv (by intro t ht; simp [ht])⟩
  | @ret k e _ _ => exact ⟨.ret k none, rfl, by simp [Stmt.idents]⟩
  | @retValue k e ts x _ value _ =>
    obtain ⟨v, rfl, hv⟩ := value.isExprOf
    exact ⟨.ret k (some v), rfl, inside hv (by intro t ht; simp [ht])⟩

theorem SpellsStatements.exists_stmts {ts : List Token} {xs : List Node}
    (h : SpellsStatements ts xs) :
    ∃ ss : List Stmt, xs = ss.map Stmt.node ∧ ∀ s ∈ ss, ∀ id ∈ s.idents, id.WrittenIn ts := by
  induction h with
  | nil => exact ⟨[], rfl, by simp⟩
  | cons first _ ih =>
    obtain ⟨s, rfl, hs⟩ := first.isStmtOf
    obtain ⟨ss, rfl, hss⟩ := ih
    refine ⟨s :: ss, rfl, ?_⟩
    intro s' hs' id hid
    rcases List.mem_cons.mp hs' with rfl | hs'
    · exact (hs id hid).mono (by simp)
    · exact (hss s' hs' id hid).mono (by simp)

/-- What a parse gives is a list of statements, with names from the input. -/
theorem TokenStream.exists_stmts_of_parse {s : TokenStream} {p : Program}
    (h : s.parse.result = .ok p) : ∃ ss : List Stmt, p.stmts = ss.map Stmt.node ∧
      ∀ st ∈ ss, ∀ id ∈ st.idents, id.WrittenIn s.tokens := by
  obtain ⟨us, q, e, hus, hq, hx⟩ := Parser.run_eq_ok h
  obtain ⟨body, _⟩ := Parser.finish_reads (Parser.feedAll_reads Parser.reads_nil hq) hx
  obtain ⟨ss, hss, hid⟩ := body.exists_stmts
  exact ⟨ss, hss, fun st hst id h => (hid st hst id h).mono hus.subset⟩

end IntLang
