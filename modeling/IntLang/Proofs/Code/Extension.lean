import IntLang.Proofs.Code.Renaming

/-! A program with more statements after it. No later declaration takes a name that is known, so
the places of the earlier variables stay, and with them the code of the earlier statements. -/
namespace IntLang

theorem layoutAll_append (ns ns' : List Node) :
    layoutAll (ns ++ ns') = (do layoutAll ns; layoutAll ns') := by
  induction ns with
  | nil => simp [layoutAll]
  | cons n ns ih => simp [layoutAll, ih]

theorem emitAll_append (f : Frame) (t : Table) (ns ns' : List Node) :
    emitAll f t (ns ++ ns') = (emitAll f t ns).andThen (emitAll f t ns') := by
  induction ns with
  | nil => rfl
  | cons n ns ih => rw [List.cons_append, emitAll, emitAll, ih, Emission.andThen_assoc]

theorem Emission.instrs_andThen {a : Emission} (h : a.halt = none) (b : Emission) :
    (a.andThen b).instrs = a.instrs ++ b.instrs := by
  simp [andThen, h, instrs]

/-- Declarations that were made keep their places when more are made. -/
theorem Scopes.Grows.carriesPlaces {s s' : Scopes} (h : s.Grows s') (hwf : s'.WellFormed) :
    CarriesPlaces {} s.frame s.table s'.frame s'.table := by
  refine ⟨rfl, rfl, ?_⟩
  intro name place hp
  change s'.frame.place? s'.table name = some place
  unfold Frame.place? at hp ⊢
  cases hl : s.frame.find? name with
  | some l =>
    have hl' : s'.frame.find? name = some l := h.locals.find?_eq_some hl
    rw [hl] at hp
    rw [hl']
    exact hp
  | none =>
    rw [hl] at hp
    obtain ⟨g, hg, rfl⟩ := Option.map_eq_some_iff.mp hp
    have hg' : s'.table.find? name = some g := h.globals.find?_eq_some hg
    -- a local of this name would have been refused next to the global
    have hl' : s'.frame.find? name = none := by
      refine List.find?_eq_none.mpr ?_
      intro l hmem hname
      have hapart := hwf.apart l hmem
      rw [of_decide_eq_true hname, hg'] at hapart
      cases hapart
    rw [hl', hg']
    rfl

/-- The lines of every program before the room for its locals. -/
def entryLines : List Text := ["push rbp", "mov rbp, rsp"]

/-- The lines of every program after its body. -/
def exitLines : List Text := ["xor eax, eax", "mov rsp, rbp", "pop rbp", "ret"]

/-- The line that makes room for the locals of a frame, if it has any. -/
def Frame.roomLines (f : Frame) : List Text :=
  if f.size = 0 then [] else ["sub rsp, " ++ Decimal.ofNat f.size]

theorem prologue_text (f : Frame) :
    (prologue f).map Instr.text = entryLines ++ f.roomLines := by
  unfold prologue Frame.roomLines
  split <;> rfl

/-- If a parsed program is accepted with more statements after it, it is accepted alone. Its lines
between the prologue and the closing, its locals and its globals are then the first ones of the
longer program, and the prologues differ at most in the room they make. -/
theorem TokenStream.generate_append (tokens : TokenStream) {p : Program}
    (hp : tokens.parse.result = .ok p) (tok : Token) (later : List Node) {text : Text}
    {g : Generator} (hg : ({} : Generator).generate ⟨tok, p.stmts ++ later⟩ = (.ok text, g)) :
    ∃ text₁ g₁ f₁ f body rest, ({} : Generator).generate p = (.ok text₁, g₁) ∧
      p.node.layoutFrame {} = (.ok f₁, g₁.table) ∧
      (Program.node ⟨tok, p.stmts ++ later⟩).layoutFrame {} = (.ok f, g.table) ∧
      g₁.lines = entryLines ++ f₁.roomLines ++ body ++ exitLines ∧
      g.lines = entryLines ++ f.roomLines ++ (body ++ rest) ++ exitLines ∧
      f₁.locals <+: f.locals ∧ g₁.table.globals <+: g.table.globals := by
  obtain ⟨s, is, hs, htable, rfl, hlines, _⟩ := Generator.generate_eq_ok hg
  have hall : layoutAll (p.stmts ++ later) ⟨{}, {}⟩ = .ok () s := hs
  rw [layoutAll_append] at hall
  obtain ⟨_, s₁, hs₁, hlater⟩ := Declaring.bind_eq_ok.mp hall
  have hlayout : p.node.layout ⟨{}, {}⟩ = .ok () s₁ := hs₁
  have hgrows : s₁.Grows s := Node.layout_grows (n := .program tok later) hlater
  have hwf : s.WellFormed := by
    refine Scopes.wellFormed_empty.extends (P := fun _ => True) (Node.layout_extends _ ?_ hs)
    intro m _
    cases m <;> trivial
  have hhalt := (regular_of_parse hp).emit_halt hlayout
  have hcode : emitAll s.frame s.table p.stmts = p.node.emit s₁.frame s₁.table := by
    have hcarry := (hgrows.carriesPlaces hwf).emit p.node hhalt
    rwa [Node.relabel_id] at hcarry
  have hbody : ((Program.node ⟨tok, p.stmts ++ later⟩).emit s.frame s.table).instrs =
      (p.node.emit s₁.frame s₁.table).instrs ++ (emitAll s.frame s.table later).instrs := by
    rw [Program.node, Node.emit, emitAll_append, hcode, Emission.instrs_andThen hhalt]
  have hclosing : closing.map Instr.text = exitLines := rfl
  refine ⟨_, _, s₁.frame, s.frame, (p.node.emit s₁.frame s₁.table).instrs.map Instr.text,
    (emitAll s.frame s.table later).instrs.map Instr.text,
    Generator.generate_of_layout hlayout hhalt, Node.layoutFrame_of_layout hlayout, ?_, ?_, ?_,
    hgrows.locals, ?_⟩
  · rw [htable]
    exact Node.layoutFrame_of_layout hs
  · simp only [Scopes.lines, List.map_append, prologue_text, hclosing, List.append_assoc]
  · simp only [hlines, hbody, List.map_append, prologue_text, hclosing, List.append_assoc,
      List.nil_append]
  · rw [htable]
    exact hgrows.globals

/-- With `local int y = x; local int z = y; global int g = z;` after `local int x = 1; print x;`
more room is made, and the first statements have the same code. -/
theorem TokenStream.generate_append_room :
    let local₁ : Token := ⟨.keyword .localWord, "local", 1⟩
    let global₁ : Token := ⟨.keyword .globalWord, "global", 1⟩
    let print : Token := ⟨.keyword .printWord, "print", 1⟩
    let one : Token := ⟨.intLiteral, "1", 1⟩
    let x : Ident := ⟨⟨.identifier, "x", 1⟩, "x"⟩
    let y : Ident := ⟨⟨.identifier, "y", 1⟩, "y"⟩
    let z : Ident := ⟨⟨.identifier, "z", 1⟩, "z"⟩
    let g : Ident := ⟨⟨.identifier, "g", 1⟩, "g"⟩
    let p : Program := ⟨local₁, [.decl local₁ .localVar x (some (.int one 1)),
      .print print (.ident x)]⟩
    let later : List Node := [.decl local₁ .localVar y (some (.ident x)),
      .decl local₁ .localVar z (some (.ident y)), .decl global₁ .globalVar g (some (.ident z))]
    ∃ text g text₁ g₁ body rest,
      ({} : Generator).generate ⟨local₁, p.stmts ++ later⟩ = (.ok text, g) ∧
      ({} : Generator).generate p = (.ok text₁, g₁) ∧
      g₁.lines = entryLines ++ [("sub rsp, 16" : Text)] ++ body ++ exitLines ∧
      g.lines = entryLines ++ [("sub rsp, 32" : Text)] ++ (body ++ rest) ++ exitLines := by
  intro local₁ global₁ print one x y z g p later
  let intWord : Token := ⟨.keyword .intWord, "int", 1⟩
  let semicolon : Token := ⟨.char ';', ";", 1⟩
  have hp : (TokenStream.parse ⟨[local₁, intWord, x.tok, ⟨.char '=', "=", 1⟩, one, semicolon, print,
      x.tok, semicolon], .endOfFile 1⟩).result = .ok p := rfl
  have hframe : p.node.layoutFrame {} = (.ok ⟨[⟨"x", -8, 1⟩], true⟩, {}) := rfl
  have hlonger : (Program.node ⟨local₁, p.stmts ++ later⟩).layoutFrame {} =
      (.ok ⟨[⟨"x", -8, 1⟩, ⟨"y", -16, 1⟩, ⟨"z", -24, 1⟩], true⟩, ⟨[⟨"g", "g_g", 1⟩]⟩) := rfl
  obtain ⟨text, g, hg⟩ : ∃ text g,
      ({} : Generator).generate ⟨local₁, p.stmts ++ later⟩ = (.ok text, g) := ⟨_, _, rfl⟩
  obtain ⟨text₁, g₁, f₁, f, body, rest, hgen, hf₁, hf, hlines₁, hlines, _⟩ :=
    generate_append _ hp local₁ later hg
  obtain rfl := Except.ok.inj (Prod.mk.inj (hframe.symm.trans hf₁)).1
  obtain rfl := Except.ok.inj (Prod.mk.inj (hlonger.symm.trans hf)).1
  exact ⟨text, g, text₁, g₁, body, rest, hg, hgen, hlines₁, hlines⟩

end IntLang
