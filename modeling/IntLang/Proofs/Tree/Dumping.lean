import IntLang.Proofs.Tree.Entries

/-! What a dump tells about a tree. A line of a dump can be taken apart into its depth, what it says
of a node and the number of a source line, and the lines of a node come before those of its children,
which are deeper. So trees with the same dump differ at most in how literals are spelled. -/
namespace IntLang

/-- Two trees are the same but for the spelling of integer literals. -/
inductive Node.Same : Node → Node → Prop
  | ident (id : Ident) : Same (.ident id) (.ident id)
  | int {t u : Token} (value : Int64) (kind : t.kind = u.kind) (line : t.line = u.line) :
      Same (.int t value) (.int u value)
  | binop {left left' right right' : Node} (tok : Token) (op : Kind) (hl : Same left left')
      (hr : Same right right') : Same (.binop tok op left right) (.binop tok op left' right')
  | assign {value value' : Node} (tok : Token) (target : Ident) (h : Same value value') :
      Same (.assign tok target value) (.assign tok target value')
  | declare (tok : Token) (scope : Scope) (name : Ident) :
      Same (.decl tok scope name none) (.decl tok scope name none)
  | initialise {init init' : Node} (tok : Token) (scope : Scope) (name : Ident)
      (h : Same init init') : Same (.decl tok scope name (some init)) (.decl tok scope name (some init'))
  | print {value value' : Node} (tok : Token) (h : Same value value') :
      Same (.print tok value) (.print tok value')
  | ret (tok : Token) : Same (.ret tok none) (.ret tok none)
  | retValue {value value' : Node} (tok : Token) (h : Same value value') :
      Same (.ret tok (some value)) (.ret tok (some value'))

/-- Statement by statement the same. -/
inductive SameStatements : List Node → List Node → Prop
  | nil : SameStatements [] []
  | cons {x y : Node} {xs ys : List Node} (first : x.Same y) (rest : SameStatements xs ys) :
      SameStatements (x :: xs) (y :: ys)

section Exact

def Ident.Exact (id : Ident) : Prop :=
  id.tok = ⟨.identifier, id.name, id.tok.line⟩ ∧ id.name.all Glyph.isInline = true

/-- Each token of the expression is of the kind that its node asks for, and is spelled so. -/
def Expr.Exact : Expr → Prop
  | .int tok _ => tok.kind = .intLiteral
  | .var id => id.Exact
  | .binary tok op left right =>
    tok = ⟨op.kind, [.char op.sign], tok.line⟩ ∧ left.Exact ∧ right.Exact

def Stmt.Exact : Stmt → Prop
  | .declare tok storage name init =>
    tok = ⟨.keyword storage.keyword, storage.keyword.spelling, tok.line⟩ ∧ name.Exact ∧
      ∀ x ∈ init, x.Exact
  | .assign tok target value =>
    tok = ⟨.char '=', "=", tok.line⟩ ∧ target.Exact ∧ value.Exact
  | .print tok value => tok = ⟨.keyword .printWord, "print", tok.line⟩ ∧ value.Exact
  | .ret tok value =>
    tok = ⟨.keyword .returnWord, "return", tok.line⟩ ∧ ∀ x ∈ value, x.Exact

theorem Token.Exact.ident {t : Token} (h : t.Exact) (kind : t.kind = .identifier) :
    Ident.Exact ⟨t, t.lexeme⟩ := by
  refine ⟨?_, h.name kind⟩
  rw [← kind]

theorem Token.Exact.eq_keyword {t : Token} {k : Keyword} (h : t.Exact)
    (kind : t.kind = .keyword k) : t = ⟨.keyword k, k.spelling, t.line⟩ := by
  rw [← kind, ← h.keyword k kind]

theorem Token.Exact.eq_sign {t : Token} {c : Char} (h : t.Exact) (kind : t.kind = .char c) :
    t = ⟨.char c, [.char c], t.line⟩ := by
  rw [← kind, ← h.sign c kind]

theorem Expr.exists_binary {op : Token} {x y : Node} (hop : ∃ o : Operator, op.kind = o.kind)
    (h : op.Exact) (hx : ∃ e : Expr, e.node = x ∧ e.Exact)
    (hy : ∃ e : Expr, e.node = y ∧ e.Exact) :
    ∃ e : Expr, e.node = .binop op op.kind x y ∧ e.Exact := by
  obtain ⟨o, ho⟩ := hop
  obtain ⟨e, rfl, he⟩ := hx
  obtain ⟨f, rfl, hf⟩ := hy
  refine ⟨.binary op o e f, by rw [Expr.node, ho], ?_, he, hf⟩
  rw [o.kind_eq] at ho ⊢
  exact h.eq_sign ho

theorem Spells.exists_exact {rank : Rank} {ts : List Token} {x : Node} (h : Spells rank ts x)
    (hts : ∀ t ∈ ts, t.Exact) : ∃ e : Expr, e.node = x ∧ e.Exact := by
  induction h with
  | @int t v kind _ => exact ⟨.int t v, rfl, kind⟩
  | @ident t kind => exact ⟨.var ⟨t, t.lexeme⟩, rfl, (hts t (by simp)).ident kind⟩
  | parens _ _ _ ih => exact ih fun t ht => hts t (by simp [ht])
  | ofFactor _ ih => exact ih hts
  | @product ts us op x y _ sign _ ihl ihr =>
    exact Expr.exists_binary sign.exists_operator (hts op (by simp))
      (ihl fun t ht => hts t (by simp [ht])) (ihr fun t ht => hts t (by simp [ht]))
  | ofTerm _ ih => exact ih hts
  | @sum ts us op x y _ sign _ ihl ihr =>
    exact Expr.exists_binary sign.exists_operator (hts op (by simp))
      (ihl fun t ht => hts t (by simp [ht])) (ihr fun t ht => hts t (by simp [ht]))

theorem DeclarationWord.exists_keyword {k : Kind} {scope : Scope} (h : DeclarationWord k scope) :
    ∃ storage : Storage, scope = storage.scope ∧ k = .keyword storage.keyword := by
  cases h with
  | globalWord => exact ⟨.globalVar, rfl, rfl⟩
  | localWord => exact ⟨.localVar, rfl, rfl⟩

theorem SpellsStatement.exists_exact {ts : List Token} {x : Node} (h : SpellsStatement ts x)
    (hts : ∀ t ∈ ts, t.Exact) : ∃ s : Stmt, s.node = x ∧ s.Exact := by
  cases h with
  | @declare k i n e scope word _ name _ =>
    obtain ⟨storage, rfl, hk⟩ := word.exists_keyword
    exact ⟨.declare k storage ⟨n, n.lexeme⟩ none, rfl, (hts k (by simp)).eq_keyword hk,
      (hts n (by simp)).ident name, by simp⟩
  | @initialise k i n q e scope ts x word _ name _ init _ =>
    obtain ⟨storage, rfl, hk⟩ := word.exists_keyword
    obtain ⟨v, rfl, hv⟩ := init.exists_exact fun t ht => hts t (by simp [ht])
    exact ⟨.declare k storage ⟨n, n.lexeme⟩ (some v), rfl, (hts k (by simp)).eq_keyword hk,
      (hts n (by simp)).ident name, by simpa using hv⟩
  | @assign n q e ts x name equals value _ =>
    obtain ⟨v, rfl, hv⟩ := value.exists_exact fun t ht => hts t (by simp [ht])
    exact ⟨.assign q ⟨n, n.lexeme⟩ v, rfl, (hts q (by simp)).eq_sign equals,
      (hts n (by simp)).ident name, hv⟩
  | @print k e ts x word value _ =>
    obtain ⟨v, rfl, hv⟩ := value.exists_exact fun t ht => hts t (by simp [ht])
    exact ⟨.print k v, rfl, (hts k (by simp)).eq_keyword word, hv⟩
  | @ret k e word _ => exact ⟨.ret k none, rfl, (hts k (by simp)).eq_keyword word, by simp⟩
  | @retValue k e ts x word value _ =>
    obtain ⟨v, rfl, hv⟩ := value.exists_exact fun t ht => hts t (by simp [ht])
    exact ⟨.ret k (some v), rfl, (hts k (by simp)).eq_keyword word, by simpa using hv⟩

theorem SpellsStatements.exists_exact {ts : List Token} {xs : List Node}
    (h : SpellsStatements ts xs) (hts : ∀ t ∈ ts, t.Exact) :
    ∃ ss : List Stmt, xs = ss.map Stmt.node ∧ ∀ s ∈ ss, s.Exact := by
  induction h with
  | nil => exact ⟨[], rfl, by simp⟩
  | cons first _ ih =>
    obtain ⟨s, rfl, hs⟩ := first.exists_exact fun t ht => hts t (by simp [ht])
    obtain ⟨ss, rfl, hss⟩ := ih fun t ht => hts t (by simp [ht])
    exact ⟨s :: ss, rfl, List.forall_mem_cons.mpr ⟨hs, hss⟩⟩

/-- What is parsed is a list of statements with tokens that are spelled as they should be. -/
theorem Reader.exists_exact_of_parse {r : Reader} {p : Program} (hr : r.Unsigned)
    (h : r.parse.result = .ok p) :
    ∃ ss : List Stmt, p.stmts = ss.map Stmt.node ∧ ∀ s ∈ ss, s.Exact := by
  obtain ⟨us, q, e, hus, hq, hx⟩ := Parser.run_eq_ok h
  obtain ⟨body, _⟩ := Parser.finish_reads (Parser.feedAll_reads Parser.reads_nil hq) hx
  exact body.exists_exact fun t ht => hr.scan t (hus.subset ht)

end Exact

section Entries

def Ident.entry (depth : Nat) (id : Ident) : DumpEntry := ⟨depth, .ident id.name, id.tok.line⟩

def Expr.entries (depth : Nat) : Expr → List DumpEntry
  | .int tok value => [⟨depth, .int value, tok.line⟩]
  | .var id => [id.entry depth]
  | .binary tok op left right =>
    ⟨depth, .binop op, tok.line⟩ :: (left.entries (depth + 1) ++ right.entries (depth + 1))

def optionEntries (depth : Nat) (o : Option Expr) : List DumpEntry := o.elim [] (Expr.entries depth)

def Stmt.entries (depth : Nat) : Stmt → List DumpEntry
  | .declare tok storage name init =>
    ⟨depth, .decl storage, tok.line⟩ :: name.entry (depth + 1) :: optionEntries (depth + 1) init
  | .assign tok target value =>
    ⟨depth, .assign, tok.line⟩ :: target.entry (depth + 1) :: value.entries (depth + 1)
  | .print tok value => ⟨depth, .print, tok.line⟩ :: value.entries (depth + 1)
  | .ret tok value => ⟨depth, .ret, tok.line⟩ :: optionEntries (depth + 1) value

theorem Expr.dumpLines_node (e : Expr) (depth : Nat) :
    e.node.dumpLines depth = (e.entries depth).map DumpEntry.dumpLine := by
  induction e generalizing depth with
  | int tok value => rfl
  | var id => rfl
  | binary tok op left right ihl ihr =>
    have hl := ihl (depth + 1)
    have hr := ihr (depth + 1)
    rw [Int.natCast_add_one] at hl hr
    have hop : Glyph.ofCode op.kind.code = .char op.sign := by cases op <;> rfl
    rw [node, Node.dumpLines, hl, hr, hop, entries, List.map_cons, List.map_append]
    rfl

theorem dumpLines_optionEntries (o : Option Expr) (depth : Nat) :
    (optionEntries depth o).map DumpEntry.dumpLine =
      (o.map Expr.node).elim [] (Node.dumpLines depth) := by
  cases o with
  | none => rfl
  | some e => exact (e.dumpLines_node depth).symm

theorem Stmt.dumpLines_node (s : Stmt) (depth : Nat) :
    s.node.dumpLines depth = (s.entries depth).map DumpEntry.dumpLine := by
  cases s with
  | declare tok storage name init =>
    rw [entries, List.map_cons, List.map_cons, dumpLines_optionEntries, node]
    cases init <;> cases storage <;> rw [Option.map, Node.dumpLines] <;> rfl
  | assign tok target value =>
    rw [entries, List.map_cons, List.map_cons, ← value.dumpLines_node, node, Node.dumpLines]
    rfl
  | print tok value =>
    rw [entries, List.map_cons, ← value.dumpLines_node, node, Node.dumpLines]
    rfl
  | ret tok value =>
    rw [entries, List.map_cons, dumpLines_optionEntries, node]
    cases value <;> rw [Option.map, Node.dumpLines] <;> rfl

theorem dumpLinesAll_map (ss : List Stmt) (depth : Nat) : dumpLinesAll depth (ss.map Stmt.node) =
    (ss.flatMap (Stmt.entries depth)).map DumpEntry.dumpLine := by
  induction ss with
  | nil => rfl
  | cons s ss ih =>
    rw [List.map_cons, dumpLinesAll, ih, s.dumpLines_node, List.flatMap_cons, List.map_append]

end Entries

section Inline

theorem Expr.Exact.inline {e : Expr} (h : e.Exact) (depth : Nat) :
    ∀ x ∈ e.entries depth, x.label.isInline = true := by
  induction e generalizing depth with
  | int tok value => simp [Expr.entries, DumpLabel.isInline]
  | var id => simpa [Expr.entries, Ident.entry, DumpLabel.isInline] using h.2
  | binary tok op left right ihl ihr =>
    obtain ⟨_, hl, hr⟩ := h
    rw [Expr.entries, List.forall_mem_cons, List.forall_mem_append]
    exact ⟨rfl, ihl hl _, ihr hr _⟩

theorem inline_optionEntries {o : Option Expr} (h : ∀ x ∈ o, x.Exact) (depth : Nat) :
    ∀ x ∈ optionEntries depth o, x.label.isInline = true := by
  cases o with
  | none => simp [optionEntries]
  | some e => exact (h e rfl).inline depth

theorem Stmt.Exact.inline {s : Stmt} (h : s.Exact) (depth : Nat) :
    ∀ x ∈ s.entries depth, x.label.isInline = true := by
  cases s with
  | declare tok storage name init =>
    obtain ⟨_, hname, hinit⟩ := h
    rw [Stmt.entries, List.forall_mem_cons, List.forall_mem_cons]
    exact ⟨rfl, hname.2, inline_optionEntries hinit _⟩
  | assign tok target value =>
    obtain ⟨_, htarget, hvalue⟩ := h
    rw [Stmt.entries, List.forall_mem_cons, List.forall_mem_cons]
    exact ⟨rfl, htarget.2, hvalue.inline _⟩
  | print tok value =>
    rw [Stmt.entries, List.forall_mem_cons]
    exact ⟨rfl, h.2.inline _⟩
  | ret tok value =>
    rw [Stmt.entries, List.forall_mem_cons]
    exact ⟨rfl, inline_optionEntries h.2 _⟩

theorem inline_flatMap {ss : List Stmt} (h : ∀ s ∈ ss, s.Exact) (depth : Nat) :
    ∀ x ∈ ss.flatMap (Stmt.entries depth), x.label.isInline = true := by
  intro x hx
  obtain ⟨s, hs, hx⟩ := List.mem_flatMap.mp hx
  exact (h s hs).inline depth x hx

end Inline

section Same

/-- The next entry, if there is one, is less deep. -/
def Shallow (depth : Nat) (es : List DumpEntry) : Prop := ∀ e ∈ es.head?, e.depth < depth

theorem Expr.exists_cons_entries (e : Expr) (depth : Nat) :
    ∃ label line rest, e.entries depth = ⟨depth, label, line⟩ :: rest := by
  cases e with
  | int tok value => exact ⟨_, _, _, rfl⟩
  | var id => exact ⟨_, _, _, rfl⟩
  | binary tok op left right => exact ⟨_, _, _, rfl⟩

theorem Stmt.exists_cons_entries (s : Stmt) (depth : Nat) :
    ∃ label line rest, s.entries depth = ⟨depth, label, line⟩ :: rest := by
  cases s with
  | declare tok storage name init => exact ⟨_, _, _, rfl⟩
  | assign tok target value => exact ⟨_, _, _, rfl⟩
  | print tok value => exact ⟨_, _, _, rfl⟩
  | ret tok value => exact ⟨_, _, _, rfl⟩

theorem Expr.not_shallow (e : Expr) (depth : Nat) (es : List DumpEntry) :
    ¬Shallow depth (e.entries depth ++ es) := by
  obtain ⟨label, line, rest, he⟩ := e.exists_cons_entries depth
  intro h
  rw [he] at h
  exact Nat.lt_irrefl depth (h _ rfl)

theorem shallow_flatMap (ss : List Stmt) (depth : Nat) :
    Shallow (depth + 1) (ss.flatMap (Stmt.entries depth)) := by
  cases ss with
  | nil => simp [Shallow]
  | cons s ss =>
    obtain ⟨label, line, rest, hs⟩ := s.exists_cons_entries depth
    rw [List.flatMap_cons, hs]
    rintro _ ⟨⟩
    exact Nat.lt_succ_self depth

theorem Ident.eq_of_entry {a b : Ident} {depth : Nat} (ha : a.Exact) (hb : b.Exact)
    (h : a.entry depth = b.entry depth) : a = b := by
  obtain ⟨-, hlabel, hline⟩ := DumpEntry.mk.inj h
  have hname : a.name = b.name := DumpLabel.ident.inj hlabel
  have htok : a.tok = b.tok := by rw [ha.1, hb.1, hname, hline]
  cases a
  cases b
  cases hname
  cases htok
  rfl

/-- The entries of an expression tell where they end, and tell the expression. -/
theorem Expr.same_of_entries {e f : Expr} {depth : Nat} {as bs : List DumpEntry} (he : e.Exact)
    (hf : f.Exact) (h : e.entries depth ++ as = f.entries depth ++ bs) :
    e.node.Same f.node ∧ as = bs := by
  induction e generalizing f depth as bs with
  | int tok value =>
    cases f with
    | int tok' value' =>
      obtain ⟨hentry, hrest⟩ := List.cons.inj h
      obtain ⟨-, ⟨rfl⟩, hline⟩ := DumpEntry.mk.inj hentry
      exact ⟨.int value (Eq.trans he (Eq.symm hf)) hline, hrest⟩
    -- Nodes of different sorts have different labels.
    | _ => simp [Expr.entries, Ident.entry] at h
  | var id =>
    cases f with
    | var id' =>
      obtain ⟨hentry, hrest⟩ := List.cons.inj h
      rw [Ident.eq_of_entry he hf hentry]
      exact ⟨.ident id', hrest⟩
    | _ => simp [Expr.entries, Ident.entry] at h
  | binary tok op left right ihl ihr =>
    cases f with
    | binary tok' op' left' right' =>
      obtain ⟨htok, hl, hr⟩ := he
      obtain ⟨htok', hl', hr'⟩ := hf
      simp only [Expr.entries, List.cons_append, List.append_assoc] at h
      obtain ⟨hentry, hrest⟩ := List.cons.inj h
      obtain ⟨-, ⟨rfl⟩, hline⟩ := DumpEntry.mk.inj hentry
      obtain ⟨hleft, htail⟩ := ihl hl hl' hrest
      obtain ⟨hright, has⟩ := ihr hr hr' htail
      obtain rfl : tok = tok' := by rw [htok, htok', hline]
      exact ⟨.binop tok op.kind hleft hright, has⟩
    | _ => simp [Expr.entries, Ident.entry] at h

/-- Where less deep entries follow, it can be seen whether a part was left out. -/
theorem same_of_optionEntries {o p : Option Expr} {depth : Nat} {as bs : List DumpEntry}
    (ho : ∀ x ∈ o, x.Exact) (hp : ∀ x ∈ p, x.Exact) (ha : Shallow depth as)
    (hb : Shallow depth bs) (h : optionEntries depth o ++ as = optionEntries depth p ++ bs) :
    (o = none ∧ p = none ∨ ∃ e f, o = some e ∧ p = some f ∧ e.node.Same f.node) ∧ as = bs := by
  cases o with
  | none =>
    cases p with
    | none => exact ⟨.inl ⟨rfl, rfl⟩, h⟩
    | some f =>
      have has : as = f.entries depth ++ bs := h
      exact absurd (has ▸ ha) (f.not_shallow depth bs)
  | some e =>
    cases p with
    | none =>
      have hbs : e.entries depth ++ as = bs := h
      exact absurd (hbs ▸ hb) (e.not_shallow depth as)
    | some f =>
      obtain ⟨hsame, hrest⟩ := Expr.same_of_entries (ho e rfl) (hp f rfl) h
      exact ⟨.inr ⟨e, f, rfl, rfl, hsame⟩, hrest⟩

theorem Stmt.same_of_entries {s t : Stmt} {depth : Nat} {as bs : List DumpEntry} (hs : s.Exact)
    (ht : t.Exact) (ha : Shallow (depth + 1) as) (hb : Shallow (depth + 1) bs)
    (h : s.entries depth ++ as = t.entries depth ++ bs) : s.node.Same t.node ∧ as = bs := by
  cases s with
  | declare tok storage name init =>
    cases t with
    | declare tok' storage' name' init' =>
      obtain ⟨htok, hname, hinit⟩ := hs
      obtain ⟨htok', hname', hinit'⟩ := ht
      obtain ⟨hentry, hrest⟩ := List.cons.inj h
      obtain ⟨hid, htail⟩ := List.cons.inj hrest
      obtain ⟨-, ⟨rfl⟩, hline⟩ := DumpEntry.mk.inj hentry
      obtain rfl := Ident.eq_of_entry hname hname' hid
      obtain rfl : tok = tok' := by rw [htok, htok', hline]
      -- What follows is less deep than a first value would be.
      obtain ⟨⟨rfl, rfl⟩ | ⟨e, f, rfl, rfl, hsame⟩, has⟩ :=
        same_of_optionEntries hinit hinit' ha hb htail
      · exact ⟨.declare tok storage.scope name, has⟩
      · exact ⟨.initialise tok storage.scope name hsame, has⟩
    | _ => simp [Stmt.entries] at h
  | assign tok target value =>
    cases t with
    | assign tok' target' value' =>
      obtain ⟨htok, htarget, hvalue⟩ := hs
      obtain ⟨htok', htarget', hvalue'⟩ := ht
      obtain ⟨hentry, hrest⟩ := List.cons.inj h
      obtain ⟨hid, htail⟩ := List.cons.inj hrest
      obtain ⟨-, -, hline⟩ := DumpEntry.mk.inj hentry
      obtain rfl := Ident.eq_of_entry htarget htarget' hid
      obtain rfl : tok = tok' := by rw [htok, htok', hline]
      obtain ⟨hsame, has⟩ := Expr.same_of_entries hvalue hvalue' htail
      exact ⟨.assign tok target hsame, has⟩
    | _ => simp [Stmt.entries] at h
  | print tok value =>
    cases t with
    | print tok' value' =>
      obtain ⟨hentry, hrest⟩ := List.cons.inj h
      obtain ⟨-, -, hline⟩ := DumpEntry.mk.inj hentry
      obtain rfl : tok = tok' := by rw [hs.1, ht.1, hline]
      obtain ⟨hsame, has⟩ := Expr.same_of_entries hs.2 ht.2 hrest
      exact ⟨.print tok hsame, has⟩
    | _ => simp [Stmt.entries] at h
  | ret tok value =>
    cases t with
    | ret tok' value' =>
      obtain ⟨hentry, hrest⟩ := List.cons.inj h
      obtain ⟨-, -, hline⟩ := DumpEntry.mk.inj hentry
      obtain rfl : tok = tok' := by rw [hs.1, ht.1, hline]
      obtain ⟨⟨rfl, rfl⟩ | ⟨e, f, rfl, rfl, hsame⟩, has⟩ :=
        same_of_optionEntries hs.2 ht.2 ha hb hrest
      · exact ⟨.ret tok, has⟩
      · exact ⟨.retValue tok hsame, has⟩
    | _ => simp [Stmt.entries] at h

theorem same_of_flatMap {ss ts : List Stmt} {depth : Nat} (hs : ∀ s ∈ ss, s.Exact)
    (ht : ∀ t ∈ ts, t.Exact)
    (h : ss.flatMap (Stmt.entries depth) = ts.flatMap (Stmt.entries depth)) :
    SameStatements (ss.map Stmt.node) (ts.map Stmt.node) := by
  induction ss generalizing ts with
  | nil =>
    cases ts with
    | nil => exact .nil
    | cons t ts =>
      obtain ⟨label, line, rest, hcons⟩ := t.exists_cons_entries depth
      simp [hcons] at h
  | cons s ss ih =>
    cases ts with
    | nil =>
      obtain ⟨label, line, rest, hcons⟩ := s.exists_cons_entries depth
      simp [hcons] at h
    | cons t ts =>
      rw [List.forall_mem_cons] at hs ht
      obtain ⟨hsame, hrest⟩ :=
        Stmt.same_of_entries hs.1 ht.1 (shallow_flatMap ss depth) (shallow_flatMap ts depth) h
      exact .cons hsame (ih hs.2 ht.2 hrest)

theorem Node.Same.dumpLines_eq {x y : Node} (h : x.Same y) (depth : Int) :
    x.dumpLines depth = y.dumpLines depth := by
  induction h generalizing depth with
  | ident id => rfl
  | int value _ line => rw [Node.dumpLines, Node.dumpLines, Token.dumpLine, Token.dumpLine, line]
  | binop tok op _ _ ihl ihr => rw [Node.dumpLines, Node.dumpLines, ihl, ihr]
  | assign tok target _ ih => rw [Node.dumpLines, Node.dumpLines, ih]
  | declare tok scope name => rfl
  | initialise tok scope name _ ih => rw [Node.dumpLines, Node.dumpLines, ih]
  | print tok _ ih => rw [Node.dumpLines, Node.dumpLines, ih]
  | ret tok => rfl
  | retValue tok _ ih => rw [Node.dumpLines, Node.dumpLines, ih]

theorem SameStatements.dumpLinesAll_eq {xs ys : List Node} (h : SameStatements xs ys)
    (depth : Int) : dumpLinesAll depth xs = dumpLinesAll depth ys := by
  induction h with
  | nil => rfl
  | cons first _ ih => rw [dumpLinesAll, dumpLinesAll, first.dumpLines_eq, ih]

end Same

/-- The first line of a dump names no source line, so the token of the program is not shown. -/
theorem Program.dump_eq (p : Program) :
    p.dump = ("program:\n" : Text) ++ (dumpLinesAll 1 p.stmts).flatMap DumpLine.text := by
  rw [dump, Node.dump, node, Node.dumpLines, List.flatMap_cons]
  rfl

theorem Program.dump_map {p : Program} {ss : List Stmt} (h : p.stmts = ss.map Stmt.node) :
    p.dump = ("program:\n" : Text) ++ DumpEntry.textAll (ss.flatMap (Stmt.entries 1)) := by
  rw [dump_eq, h, DumpEntry.textAll, ← dumpLinesAll_map]
  rfl

/-- Two parsed programs have the same bytes for a dump if and only if they are the same but for the
spelling of literals. -/
theorem Reader.dump_eq_iff_same {r r' : Reader} {p q : Program} (hr : r.Unsigned)
    (hr' : r'.Unsigned) (hp : r.parse.result = .ok p) (hq : r'.parse.result = .ok q) :
    Utf8.encode p.dump = Utf8.encode q.dump ↔ SameStatements p.stmts q.stmts := by
  constructor
  · intro h
    obtain ⟨ss, hss, hs⟩ := exists_exact_of_parse hr hp
    obtain ⟨ts, hts, ht⟩ := exists_exact_of_parse hr' hq
    have hsi := inline_flatMap hs 1
    have hti := inline_flatMap ht 1
    rw [Program.dump_map hss, Program.dump_map hts] at h
    -- From the bytes back to the text, to its lines and to the statements.
    have htext := Utf8.encode_inj
      (by rw [List.all_append, DumpEntry.all_textAll hsi]; rfl)
      (by rw [List.all_append, DumpEntry.all_textAll hti]; rfl) h
    have hentries := DumpEntry.textAll_inj hsi hti (List.append_cancel_left htext)
    rw [hss, hts]
    exact same_of_flatMap hs ht hentries
  · intro h
    rw [p.dump_eq, q.dump_eq, h.dumpLinesAll_eq]

/-- A zero before a literal is not seen in a dump. -/
theorem Reader.dump_eq_iff_same_zero :
    let source (digits : List Char) : List Char := "return x-".toList ++ digits ++ [';']
    ∃ p q : Program, (ofText ((source ['7']).map .char)).parse.result = .ok p ∧
      (ofText ((source ['0', '7']).map .char)).parse.result = .ok q ∧
      Utf8.encode p.dump = Utf8.encode q.dump ∧ SameStatements p.stmts q.stmts := by
  intro source
  let word : Token := ⟨.keyword .returnWord, "return", 1⟩
  let x : Ident := ⟨⟨.identifier, "x", 1⟩, "x"⟩
  let minus : Token := ⟨.char '-', "-", 1⟩
  let literal (digits : List Char) : Token := ⟨.intLiteral, digits.map .char, 1⟩
  let semicolon : Token := ⟨.char ';', ";", 1⟩
  let p (digits : List Char) : Program :=
    ⟨word, [.ret word (some (.binop minus minus.kind (.ident x) (.int (literal digits) 7)))]⟩
  let pieces (digits : List Char) : List (List Char × List Char) :=
    [([], "return".toList), ([' '], ['x']), ([], ['-']), ([], digits), ([], [';'])]
  let tokens (digits : List Char) : List Token := [word, x.tok, minus, literal digits, semicolon]
  have hcut₁ : Cut [] (source ['7']) (tokens ['7']) := .of_pieces (pieces ['7']) rfl
  have hcut₂ : Cut [] (source ['0', '7']) (tokens ['0', '7']) := .of_pieces (pieces ['0', '7']) rfl
  have hseven : (ofText ((source ['7']).map .char)).parse.result = .ok (p ['7']) := by
    rw [Reader.parse, (at_ofText (source ['7'])).scan_cut hcut₁]
    rfl
  have hzero : (ofText ((source ['0', '7']).map .char)).parse.result = .ok (p ['0', '7']) := by
    rw [Reader.parse, (at_ofText (source ['0', '7'])).scan_cut hcut₂]
    rfl
  have hbytes : Utf8.encode (p ['7']).dump = Utf8.encode (p ['0', '7']).dump := rfl
  exact ⟨p ['7'], p ['0', '7'], hseven, hzero, hbytes,
    (dump_eq_iff_same (unsigned_ofText _) (unsigned_ofText _) hseven hzero).mp hbytes⟩

end IntLang
