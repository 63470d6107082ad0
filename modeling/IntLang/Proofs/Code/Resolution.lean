import IntLang.Code.Generator
import IntLang.Proofs.Scope.Growth

/-! If the first pass over a tree succeeds, the second finds every name it asks for. The only
thing that can still stop it is an operator it has no code for. -/
namespace IntLang

/-- Where a variable is kept: locals come before globals. -/
def Frame.place? (f : Frame) (t : Table) (name : Text) : Option Operand :=
  match f.find? name with
  | some l => some (.mem (.slot l.offset))
  | none => (t.find? name).map fun g => .rel g.label

theorem Frame.localOffset_of_find? {f : Frame} {name : Text} {l : Local} (hf : f.fixed = true)
    (h : f.find? name = some l) : f.localOffset name = .ok l.offset := by
  simp [localOffset, check, hf, h, bind, Except.bind, pure, Except.pure]

/-- A fixed frame answers without misuse: it names the place, or none for an unknown name. -/
theorem Frame.operand?_eq {f : Frame} (hf : f.fixed = true) (t : Table) (name : Text) :
    f.operand? t name = .ok (f.place? t name) := by
  cases hl : f.find? name with
  | some l =>
    have hr : f.resolve t name = .ok .localVar := by
      simp [resolve, check, hf, hl, bind, Except.bind, pure, Except.pure]
    simp [operand?, place?, hr, hl, localOffset_of_find? hf hl, bind, Except.bind, pure,
      Except.pure]
  | none =>
    cases hg : t.find? name with
    | some g =>
      have hr : f.resolve t name = .ok .globalVar := by
        simp [resolve, check, hf, hl, hg, bind, Except.bind, pure, Except.pure]
      have hlabel : f.globalLabel t name = .ok g.label := by
        simp [globalLabel, check, hf, hl, hg, bind, Except.bind, pure, Except.pure]
      simp [operand?, place?, hr, hl, hg, hlabel, bind, Except.bind, pure, Except.pure]
    | none =>
      have hr : f.resolve t name = .ok .unknown := by
        simp [resolve, check, hf, hl, hg, bind, Except.bind, pure, Except.pure]
      simp [operand?, place?, hr, hl, hg, bind, Except.bind, pure, Except.pure]

theorem Ident.emit_eq {f : Frame} {t : Table} {id : Ident} {place : Operand}
    (hf : f.fixed = true) (h : f.place? t id.name = some place) (code : Operand → List Instr) :
    id.emit f t code = .ofInstrs (code place) := by
  rw [Ident.emit, Frame.operand?_eq hf, h]

/-- A fixed frame and a table that hold all that was declared. -/
structure Covers (f : Frame) (t : Table) (s : Scopes) : Prop where
  fixed : f.fixed = true
  locals : s.builder.locals <+: f.locals
  globals : s.table.globals <+: t.globals

namespace Covers

variable {f : Frame} {t : Table} {s s' : Scopes} {name : Text}

theorem of_grows (h : Covers f t s') (hs : s.Grows s') : Covers f t s :=
  ⟨h.fixed, hs.locals.trans h.locals, hs.globals.trans h.globals⟩

theorem find?_local (h : Covers f t s) {l : Local} (hl : s.builder.find? name = some l) :
    f.find? name = some l := h.locals.find?_eq_some hl

theorem find?_global (h : Covers f t s) {g : Global} (hg : s.table.find? name = some g) :
    t.find? name = some g := h.globals.find?_eq_some hg

/-- A name that was declared has a place. -/
theorem place? (h : Covers f t s) (hn : s.builder.lookup s.table name ≠ .unknown) :
    ∃ place, f.place? t name = some place := by
  unfold Frame.place?
  cases hf : f.find? name with
  | some l => exact ⟨_, rfl⟩
  | none =>
    unfold Builder.lookup at hn
    cases hl : s.builder.find? name with
    | some l => simp [h.find?_local hl] at hf
    | none =>
      cases hg : s.table.find? name with
      | some g =>
        rw [h.find?_global hg]
        exact ⟨_, rfl⟩
      | none => simp [hl, hg] at hn

end Covers

namespace Declaring

theorem bind_eq_ok {α β : Type} {x : Declaring α} {f : α → Declaring β} {s s' : Scopes} {b : β} :
    (x >>= f) s = .ok b s' ↔ ∃ a s₁, x s = .ok a s₁ ∧ f a s₁ = .ok b s' := by
  simp only [Bind.bind, EStateM.bind]
  cases x s with
  | ok a s₁ =>
    constructor
    · intro h
      exact ⟨a, s₁, rfl, h⟩
    · rintro ⟨_, _, h, h'⟩
      cases h
      exact h'
  | error e s₁ => simp

theorem use_eq_ok {id : Ident} {s s' : Scopes} :
    use id s = .ok () s' ↔ s.builder.lookup s.table id.name ≠ .unknown ∧ s' = s := by
  unfold use
  split <;> simp_all [eq_comm]

/-- The name is among the declarations after it was declared, and a local in the frame. -/
theorem declare_eq_ok {scope : Scope} {id : Ident} {s s' : Scopes}
    (h : declare scope id s = .ok () s') : s'.builder.lookup s'.table id.name = scope ∧
      (scope = .localVar → ∃ l, s'.builder.find? id.name = some l) := by
  unfold declare at h
  split at h
  · unfold ofGlobal at h
    split at h
    · rename_i t ht
      cases h
      obtain ⟨_, hl, ht⟩ := Builder.declareGlobal_eq_ok.mp ht
      obtain ⟨_, rfl⟩ := Table.declare_eq_ok.mp ht
      simp [Builder.lookup, hl, Table.find?, Table.entry]
    · cases h
  · unfold ofLocal at h
    split at h
    · rename_i b hb
      cases h
      obtain ⟨_, _, _, rfl⟩ := Builder.declareLocal_eq_ok.mp hb
      have hf : ∃ l, Builder.find? { s.builder with
          locals := s.builder.locals ++ [s.builder.entry id.name id.tok.line] } id.name =
          some l := by
        simp [Builder.find?, Builder.entry]
      obtain ⟨l, hl⟩ := hf
      exact ⟨by simp [Builder.lookup, hl], fun _ => ⟨l, hl⟩⟩
    · cases h
  · cases h

end Declaring

/-- Made of the eight kinds of nodes that both passes look at. -/
inductive Node.Plain : Node → Prop
  | program {tok : Token} {stmts : List Node} (h : ∀ n ∈ stmts, n.Plain) :
      Plain (.program tok stmts)
  | ident (id : Ident) : Plain (.ident id)
  | int (tok : Token) (value : Int64) : Plain (.int tok value)
  | binop {tok : Token} {op : Kind} {left right : Node} (hl : left.Plain) (hr : right.Plain) :
      Plain (.binop tok op left right)
  | assign {tok : Token} {target : Ident} {value : Node} (h : value.Plain) :
      Plain (.assign tok target value)
  | declare (tok : Token) (scope : Scope) (name : Ident) : Plain (.decl tok scope name none)
  | initialise {tok : Token} {scope : Scope} {name : Ident} {init : Node} (h : init.Plain) :
      Plain (.decl tok scope name (some init))
  | print {tok : Token} {value : Node} (h : value.Plain) : Plain (.print tok value)
  | ret (tok : Token) : Plain (.ret tok none)
  | retValue {tok : Token} {value : Node} (h : value.Plain) : Plain (.ret tok (some value))

mutual

/-- The operators of a tree, in the order in which code is written for them. -/
def Node.operators : Node → List Kind
  | .program _ stmts => operatorsAll stmts
  | .ident _ => []
  | .int _ _ => []
  | .binop _ op left right => left.operators ++ right.operators ++ [op]
  | .assign _ _ value => value.operators
  | .decl _ _ _ none => []
  | .decl _ _ _ (some init) => init.operators
  | .print _ value => value.operators
  | .ret _ none => []
  | .ret _ (some value) => value.operators
  | .late inner => inner.operators

def operatorsAll : List Node → List Kind
  | [] => []
  | node :: rest => node.operators ++ operatorsAll rest

end

/-- One of the four operators that there is code for. -/
def Kind.isArithmetic (k : Kind) : Bool :=
  k = .char '+' || k = .char '-' || k = .char '*' || k = .char '/'

/-- What stops the second pass: the first operator that there is no code for. -/
def badOperator? (ops : List Kind) : Option Halt :=
  (ops.find? fun k => !k.isArithmetic).map fun k => .misused (.badOperator k)

theorem badOperator?_append (ops ops' : List Kind) :
    badOperator? (ops ++ ops') = (badOperator? ops).or (badOperator? ops') := by
  unfold badOperator?
  rw [List.find?_append]
  cases ops.find? fun k => !k.isArithmetic <;> simp

theorem operatorCode_halt (op : Kind) : (operatorCode op).halt = badOperator? [op] := by
  unfold operatorCode badOperator? Kind.isArithmetic
  by_cases hadd : op = .char '+'
  · simp [hadd, Emission.ofInstrs]
  by_cases hsub : op = .char '-'
  · simp [hsub, Emission.ofInstrs, Kind.char]
  by_cases hmul : op = .char '*'
  · simp [hmul, Emission.ofInstrs, Kind.char]
  by_cases hdiv : op = .char '/'
  · simp [hdiv, Emission.ofInstrs, Kind.char]
  simp [hadd, hsub, hmul, hdiv, Emission.stop]

namespace Emission

@[simp] theorem halt_andThen (a b : Emission) : (a.andThen b).halt = a.halt.or b.halt := by
  unfold andThen
  cases h : a.halt <;> simp [h]

@[simp] theorem halt_ofInstrs (is : List Instr) : (ofInstrs is).halt = none := rfl

end Emission

theorem emitAll_halt {f : Frame} {t : Table} {ns : List Node}
    (ih : ∀ n ∈ ns, ∀ s s' : Scopes, n.layout s = .ok () s' → Covers f t s' →
      (n.emit f t).halt = badOperator? n.operators)
    {s s' : Scopes} (h : layoutAll ns s = .ok () s') (hc : Covers f t s') :
    (emitAll f t ns).halt = badOperator? (operatorsAll ns) := by
  induction ns generalizing s with
  | nil => rfl
  | cons n ns ihs =>
    rw [layoutAll] at h
    obtain ⟨_, s₁, h₁, h₂⟩ := Declaring.bind_eq_ok.mp h
    have hg : s₁.Grows s' := Node.layout_grows (n := .program .zero ns) h₂
    rw [emitAll, operatorsAll, Emission.halt_andThen, badOperator?_append,
      ih n (by simp) s s₁ h₁ (hc.of_grows hg), ihs (fun m hm => ih m (by simp [hm])) h₂]

/-- After the first pass, what halts the second is exactly the first operator without code. -/
theorem Node.Plain.emit_halt {f : Frame} {t : Table} {n : Node} (hn : n.Plain) :
    ∀ s s' : Scopes, n.layout s = .ok () s' → Covers f t s' →
      (n.emit f t).halt = badOperator? n.operators := by
  have stored {id : Ident} {s : Scopes} (hc : Covers f t s)
      (hk : s.builder.lookup s.table id.name ≠ .unknown) (code : Operand → List Instr) :
      (id.emit f t code).halt = none := by
    obtain ⟨place, hp⟩ := hc.place? hk
    rw [Ident.emit_eq hc.fixed hp, Emission.halt_ofInstrs]
  induction hn with
  | program _ ih =>
    intro s s' h hc
    exact emitAll_halt ih h hc
  | ident id =>
    intro s s' h hc
    obtain ⟨hk, rfl⟩ := Declaring.use_eq_ok.mp h
    exact stored hc hk _
  | int tok value =>
    intro s s' _ _
    rfl
  | @binop tok op left right _ _ ihl ihr =>
    intro s s' h hc
    rw [Node.layout] at h
    obtain ⟨_, s₁, h₁, h₂⟩ := Declaring.bind_eq_ok.mp h
    have hl := ihl s s₁ h₁ (hc.of_grows (Node.layout_grows h₂))
    have hr := ihr s₁ s' h₂ hc
    simp only [Node.emit, Node.operators, Emission.halt_andThen, Emission.halt_ofInstrs,
      operatorCode_halt, badOperator?_append, hl, hr, Option.none_or, Option.or_assoc]
  | @assign tok target value _ ih =>
    intro s s' h hc
    rw [Node.layout] at h
    obtain ⟨_, s₁, h₁, h₂⟩ := Declaring.bind_eq_ok.mp h
    obtain ⟨hk, rfl⟩ := Declaring.use_eq_ok.mp h₁
    have hg := Node.layout_grows h₂
    rw [Node.emit, Node.operators, Emission.halt_andThen, ih s₁ s' h₂ hc, Ident.store,
      stored (hc.of_grows hg) hk, Option.or_none]
  | declare tok scope name =>
    intro s s' h hc
    obtain ⟨_, hlocal⟩ := Declaring.declare_eq_ok h
    simp only [Node.emit, Node.operators]
    split
    · rename_i hs
      obtain ⟨l, hl⟩ := hlocal hs
      simp [Ident.clear, Frame.localOffset_of_find? hc.fixed (hc.find?_local hl), badOperator?]
    · rfl
  | @initialise tok scope name init _ ih =>
    intro s s' h hc
    rw [Node.layout] at h
    obtain ⟨_, s₁, h₁, h₂⟩ := Declaring.bind_eq_ok.mp h
    have hg := (Naming.declare scope name).act_grows h₂
    have hk : s'.builder.lookup s'.table name.name ≠ .unknown := by
      rw [(Declaring.declare_eq_ok h₂).1]
      rintro rfl
      cases h₂
    rw [Node.emit, Node.operators, Emission.halt_andThen, ih s s₁ h₁ (hc.of_grows hg),
      Ident.store, stored hc hk, Option.or_none]
  | @print tok value _ ih =>
    intro s s' h hc
    rw [Node.emit, Node.operators, Emission.halt_andThen, ih s s' h hc, Emission.halt_ofInstrs,
      Option.or_none]
  | ret tok =>
    intro s s' _ _
    rfl
  | @retValue tok value _ ih =>
    intro s s' h hc
    rw [Node.emit, Node.operators, Emission.halt_andThen, ih s s' h hc, Option.or_none]

theorem Covers.of_finish {s : Scopes} {f : Frame} {b : Builder} {t : Table}
    (hf : s.builder.finish = .ok (f, b)) (ht : s.table.Declares t) : Covers f t s := by
  obtain ⟨_, rfl, _⟩ := Builder.finish_eq_ok.mp hf
  exact ⟨rfl, List.prefix_rfl, ht.globals⟩

/-- A declaration asks for one of the two places that a program can ask for. -/
def Naming.Proper : Naming → Prop
  | .use _ => True
  | .declare scope _ => ∃ storage : Storage, scope = storage.scope

/-- Before the frame is fixed a naming fails at most with an error of the program. -/
theorem Naming.act_eq_error {n : Naming} (hn : n.Proper) {s s' : Scopes}
    (hs : s.builder.finished = false) {h : Halt} (he : n.act s = .error h s') :
    ∃ e, h = .rejected e := by
  cases n with
  | use id =>
    simp only [act, Declaring.use] at he
    split at he
    · cases he
      exact ⟨_, rfl⟩
    · cases he
  | declare scope id =>
    obtain ⟨storage, rfl⟩ := hn
    cases storage with
    | globalVar =>
      simp only [act, Storage.scope, Declaring.declare, Declaring.ofGlobal, Builder.declareGlobal,
        Builder.check, hs] at he
      cases hl : s.builder.find? id.name with
      | some l =>
        simp [hl, bind, Except.bind, throw, throwThe, MonadExceptOf.throw] at he
        exact ⟨_, he.1.symm⟩
      | none =>
        cases ht : s.table.declare id.name id.tok.line with
        | ok t => simp [hl, ht, bind, Except.bind, pure, Except.pure] at he
        | error e =>
          simp [hl, ht, bind, Except.bind, throw, throwThe, MonadExceptOf.throw] at he
          exact ⟨_, he.1.symm⟩
    | localVar =>
      simp only [act, Storage.scope, Declaring.declare, Declaring.ofLocal, Builder.declareLocal,
        Builder.check, hs] at he
      cases hl : s.builder.find? id.name with
      | some l =>
        simp [hl, bind, Except.bind, throw, throwThe, MonadExceptOf.throw] at he
        exact ⟨_, he.1.symm⟩
      | none =>
        cases ht : s.table.find? id.name with
        | none => simp [hl, ht, bind, Except.bind, pure, Except.pure] at he
        | some g =>
          simp [hl, ht, bind, Except.bind, throw, throwThe, MonadExceptOf.throw] at he
          exact ⟨_, he.1.symm⟩

theorem actAll_eq_error {ns : List Naming} (hn : ∀ n ∈ ns, n.Proper) {s s' : Scopes}
    (hs : s.builder.finished = false) {h : Halt} (he : actAll ns s = .error h s') :
    ∃ e, h = .rejected e := by
  induction ns generalizing s with
  | nil => cases he
  | cons n ns ih =>
    simp only [actAll, Bind.bind, EStateM.bind] at he
    cases ha : n.act s with
    | error e s₁ =>
      simp only [ha] at he
      cases he
      exact Naming.act_eq_error (hn n (by simp)) hs ha
    | ok _ s₁ =>
      simp only [ha] at he
      exact ih (fun m hm => hn m (by simp [hm])) ((n.act_grows ha).finished.trans hs) he

theorem Operator.isArithmetic_kind (op : Operator) : op.kind.isArithmetic = true := by
  cases op <;> rfl

theorem badOperator?_eq_none {ops : List Kind} (h : ∀ k ∈ ops, k.isArithmetic = true) :
    badOperator? ops = none := by
  unfold badOperator?
  rw [List.find?_eq_none.mpr fun k hk => by simp [h k hk]]
  rfl

/-- A tree that both passes treat as they treat parsed programs. -/
structure Node.Regular (n : Node) : Prop where
  plain : n.Plain
  arithmetic : ∀ k ∈ n.operators, k.isArithmetic = true
  proper : ∀ m ∈ n.namings, m.Proper

theorem Expr.regular (e : Expr) : e.node.Regular := by
  induction e with
  | int tok value =>
    exact ⟨.int tok value, by simp [node, Node.operators], by simp [node, Node.namings]⟩
  | var id =>
    exact ⟨.ident id, by simp [node, Node.operators], by simp [node, Node.namings, Naming.Proper]⟩
  | binary tok op left right ihl ihr =>
    refine ⟨.binop ihl.plain ihr.plain, ?_, List.forall_mem_append.mpr ⟨ihl.proper, ihr.proper⟩⟩
    refine List.forall_mem_append.mpr ⟨?_, ?_⟩
    · exact List.forall_mem_append.mpr ⟨ihl.arithmetic, ihr.arithmetic⟩
    · simpa using op.isArithmetic_kind

theorem Stmt.regular (s : Stmt) : s.node.Regular := by
  cases s with
  | declare tok storage name init =>
    have proper : (Naming.declare storage.scope name).Proper := ⟨storage, rfl⟩
    cases init with
    | none =>
      exact ⟨.declare tok _ name, by simp [node, Node.operators],
        by simpa [node, Node.namings] using proper⟩
    | some init =>
      refine ⟨.initialise init.regular.plain, init.regular.arithmetic, ?_⟩
      intro m hm
      rcases List.mem_append.mp hm with hm | hm
      · exact init.regular.proper m hm
      · rwa [List.mem_singleton.mp hm]
  | assign tok target value =>
    refine ⟨.assign value.regular.plain, value.regular.arithmetic, ?_⟩
    intro m hm
    rcases List.mem_cons.mp hm with rfl | hm
    · trivial
    · exact value.regular.proper m hm
  | print tok value =>
    exact ⟨.print value.regular.plain, value.regular.arithmetic, value.regular.proper⟩
  | ret tok value =>
    cases value with
    | none => exact ⟨.ret tok, by simp [node, Node.operators], by simp [node, Node.namings]⟩
    | some value =>
      exact ⟨.retValue value.regular.plain, value.regular.arithmetic, value.regular.proper⟩

theorem regular_program (tok : Token) (ss : List Stmt) :
    (Node.program tok (ss.map Stmt.node)).Regular := by
  refine ⟨.program ?_, ?_, ?_⟩
  · intro n hn
    obtain ⟨s, _, rfl⟩ := List.mem_map.mp hn
    exact s.regular.plain
  · rw [Node.operators]
    induction ss with
    | nil => simp [operatorsAll]
    | cons s ss ih =>
      intro k hk
      rcases List.mem_append.mp hk with hk | hk
      · exact s.regular.arithmetic k hk
      · exact ih k hk
  · rw [Node.namings]
    induction ss with
    | nil => simp [namingsAll]
    | cons s ss ih =>
      intro m hm
      rcases List.mem_append.mp hm with hm | hm
      · exact s.regular.proper m hm
      · exact ih m hm

theorem TokenStream.regular_of_parse {tokens : TokenStream} {p : Program}
    (hp : tokens.parse.result = .ok p) : p.node.Regular := by
  obtain ⟨ss, hss, _⟩ := exists_stmts_of_parse hp
  rw [Program.node, hss]
  exact regular_program p.tok ss

/-- A parsed program is compiled, or refused by the first pass with an error of the program. -/
theorem Generator.generate_of_regular {p : Program} (hp : p.node.Regular) (g : Generator) :
    (∃ text, (g.generate p).1 = .ok text) ∨ ∃ e, (g.generate p).1 =
      .error (.error (.during "preprocess locals" (.inScope e))) := by
  unfold Generator.generate Node.layoutFrame
  cases h : p.node.layout ⟨g.table, {}⟩ with
  | error halt s =>
    rw [p.node.layout_eq] at h
    obtain ⟨e, rfl⟩ := actAll_eq_error hp.proper rfl h
    exact .inr ⟨e, rfl⟩
  | ok _ s =>
    have hopen : s.builder.finished = false := (Node.layout_grows h).finished
    have hf := Builder.finish_eq_ok.mpr ⟨hopen, rfl, rfl⟩
    have hhalt := hp.plain.emit_halt _ _ h (Covers.of_finish hf (.refl _))
    rw [badOperator?_eq_none hp.arithmetic] at hhalt
    left
    simp only [hf, Except.map, emitProgram, Node.emitThen_empty, hhalt]
    exact ⟨_, rfl⟩

/-- When the first pass over a tree has succeeded and the frame is fixed, the second pass halts at
most at the first operator that is none of the four, whatever globals were declared in between.
So no parsed program is refused by the second pass. -/
theorem emit_after_layout :
    (∀ n : Node, n.Plain → ∀ (t : Table) (b : Builder) (s : Scopes),
      n.layout ⟨t, b⟩ = .ok () s → ∀ (f : Frame) (b' : Builder),
      s.builder.finish = .ok (f, b') → ∀ t' : Table, s.table.Declares t' →
      (n.emit f t').halt = badOperator? n.operators) ∧
    ∀ (tokens : TokenStream) (p : Program), tokens.parse.result = .ok p → ∀ g : Generator,
      (∃ text, (g.generate p).1 = .ok text) ∨ ∃ e, (g.generate p).1 =
        .error (.error (.during "preprocess locals" (.inScope e))) := by
  constructor
  · intro n hn t b s h f b' hf t' ht
    exact hn.emit_halt _ _ h (Covers.of_finish hf ht)
  · intro tokens p hp g
    exact Generator.generate_of_regular (TokenStream.regular_of_parse hp) g

/-- The code of `local int x = 1; print x % g;` stops at the operator, also if one more global
is declared before it is written. The program `print 1;` is compiled. -/
theorem emit_after_layout_remainder :
    let print : Token := ⟨.keyword .printWord, "print", 1⟩
    let one : Token := ⟨.intLiteral, "1", 1⟩
    let x : Ident := ⟨⟨.identifier, "x", 1⟩, "x"⟩
    let g : Ident := ⟨⟨.identifier, "g", 1⟩, "g"⟩
    let n : Node := .program print [.decl print .localVar x (some (.int one 1)),
      .print print (.binop print (.char '%') (.ident x) (.ident g))]
    let t : Table := ⟨[⟨"g", "g_g", 1⟩]⟩
    let l : List Local := [⟨"x", -8, 1⟩]
    n.layout ⟨t, {}⟩ = .ok () ⟨t, ⟨l, false⟩⟩ ∧
    (n.emit ⟨l, true⟩ ⟨t.globals ++ [⟨"h", "g_h", 2⟩]⟩).halt =
      some (.misused (.badOperator (.char '%'))) ∧
    ∃ text, (({} : Generator).generate ⟨print, [.print print (.int one 1)]⟩).1 = .ok text := by
  intro print one x g n t l
  have plain : n.Plain := by
    refine .program fun m hm => ?_
    simp only [List.mem_cons, List.not_mem_nil, or_false] at hm
    rcases hm with rfl | rfl
    · exact .initialise (.int _ _)
    · exact .print (.binop (.ident _) (.ident _))
  have first : n.layout ⟨t, {}⟩ = .ok () ⟨t, ⟨l, false⟩⟩ := rfl
  have later : t.Declares ⟨t.globals ++ [⟨"h", "g_h", 2⟩]⟩ :=
    @Table.Declares.step t t _ "h" 2 (.refl t) rfl
  refine ⟨first, emit_after_layout.1 n plain t {} _ first _ _ rfl _ later, ?_⟩
  have parsed : (TokenStream.parse ⟨[print, one, ⟨.char ';', ";", 1⟩], .endOfFile 1⟩).result =
      .ok ⟨print, [.print print (.int one 1)]⟩ := rfl
  rcases emit_after_layout.2 _ _ parsed {} with h | ⟨e, h⟩
  · exact h
  · cases h

end IntLang
