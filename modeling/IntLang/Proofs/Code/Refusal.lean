import IntLang.Proofs.Code.Extension

/-! What is left of a program that is refused. The first pass stops at the first statement that
names something wrongly, and that statement declares nothing, wherever in it the mistake is. So the
globals of the statements before it stay in the table, and nothing else has changed. -/
namespace IntLang
namespace Table

/-- Globals are declared one after another. -/
def declareAll (t : Table) : List Ident → Except SemanticError Table
  | [] => .ok t
  | id :: ids =>
    match t.declare id.name id.tok.line with
    | .ok t => t.declareAll ids
    | .error e => .error e

theorem declareAll_cons_eq_ok {t t' : Table} {id : Ident} {ids : List Ident} :
    t.declareAll (id :: ids) = .ok t' ↔
      ∃ t₁, t.declare id.name id.tok.line = .ok t₁ ∧ t₁.declareAll ids = .ok t' := by
  rw [declareAll]
  cases t.declare id.name id.tok.line <;> simp

theorem declareAll_append {t t₁ t' : Table} {ids more : List Ident}
    (h : t.declareAll ids = .ok t₁) (h' : t₁.declareAll more = .ok t') :
    t.declareAll (ids ++ more) = .ok t' := by
  induction ids generalizing t with
  | nil =>
    cases h
    exact h'
  | cons id ids ih =>
    obtain ⟨t₂, hd, hids⟩ := declareAll_cons_eq_ok.mp h
    exact declareAll_cons_eq_ok.mpr ⟨t₂, hd, ih hids⟩

/-- The entries that declarations add to a table with so many globals. -/
def entriesFrom (n : Nat) (ids : List Ident) : List Global :=
  ids.mapIdx fun i id => ⟨id.name, labelFor id.name (n + i), id.tok.line⟩

theorem entriesFrom_cons (n : Nat) (id : Ident) (ids : List Ident) :
    entriesFrom n (id :: ids) =
      ⟨id.name, labelFor id.name n, id.tok.line⟩ :: entriesFrom (n + 1) ids := by
  simp only [entriesFrom, List.mapIdx_cons, Nat.add_zero, Nat.add_right_comm n 1, Nat.add_assoc]

theorem globals_of_declareAll {t t' : Table} {ids : List Ident} (h : t.declareAll ids = .ok t') :
    t'.globals = t.globals ++ entriesFrom t.globals.length ids := by
  induction ids generalizing t with
  | nil =>
    cases h
    exact (List.append_nil _).symm
  | cons id ids ih =>
    obtain ⟨t₁, hd, hids⟩ := declareAll_cons_eq_ok.mp h
    obtain ⟨_, rfl⟩ := declare_eq_ok.mp hd
    rw [ih hids, entriesFrom_cons, List.length_append, List.append_assoc]
    rfl

end Table

/-- The global that a statement declares. -/
def Node.declaredGlobals : Node → List Ident
  | .decl _ .globalVar name _ => [name]
  | _ => []

theorem Naming.state_of_act_error {n : Naming} {s s' : Scopes} {h : Halt}
    (he : n.act s = .error h s') : s' = s := by
  cases n with
  | use id =>
    simp only [act, Declaring.use] at he
    split at he <;> cases he
    rfl
  | declare scope id =>
    cases scope with
    | globalVar =>
      simp only [act, Declaring.declare, Declaring.ofGlobal] at he
      split at he <;> cases he
      rfl
    | localVar =>
      simp only [act, Declaring.declare, Declaring.ofLocal] at he
      split at he <;> cases he
      rfl
    | unknown =>
      cases he
      rfl
    | other code =>
      cases he
      rfl

theorem actAll_uses_eq_error {ids : List Ident} {ns : List Naming} {s s' : Scopes} {h : Halt}
    (he : actAll (ids.map .use ++ ns) s = .error h s') : s' = s ∨ actAll ns s = .error h s' := by
  induction ids with
  | nil => exact .inr he
  | cons id ids ih =>
    simp only [List.map_cons, List.cons_append, actAll, Bind.bind, EStateM.bind] at he
    cases hu : (Naming.use id).act s with
    | error h₁ s₁ =>
      rw [hu] at he
      cases he
      exact .inl (Naming.state_of_act_error hu)
    | ok u s₁ =>
      obtain ⟨_, rfl⟩ := Declaring.use_eq_ok.mp hu
      rw [hu] at he
      exact ih he

namespace Stmt

variable {st : Stmt} {s s' : Scopes}

/-- A statement makes its declaration last, so when it is refused it has declared nothing. -/
theorem state_of_layout_error {h : Halt} (he : st.node.layout s = .error h s') : s' = s := by
  rw [Node.layout_eq, namings_node] at he
  rcases actAll_uses_eq_error he with rfl | hd
  · rfl
  · cases st with
    | declare tok storage name init =>
      have hact : (Naming.declare storage.scope name).act s = .error h s' := by
        simpa [declared, actAll] using hd
      exact Naming.state_of_act_error hact
    | assign tok target value => cases hd
    | print tok value => cases hd
    | ret tok value => cases hd

/-- A statement that is accepted adds its global to the table, if it declares one. -/
theorem declareAll_of_layout (h : st.node.layout s = .ok () s') :
    s.table.declareAll st.node.declaredGlobals = .ok s'.table := by
  cases st with
  | declare tok storage name init =>
    have hd : Declaring.declare storage.scope name s = .ok () s' :=
      declare_of_layout h (d := (storage, name)) (List.mem_singleton.mpr rfl)
    cases storage with
    | globalVar =>
      simp only [Declaring.declare, Storage.scope, Declaring.ofGlobal] at hd
      split at hd
      · rename_i t ht
        cases hd
        obtain ⟨_, _, hdecl⟩ := Builder.declareGlobal_eq_ok.mp ht
        simp only [node, Storage.scope, Node.declaredGlobals, Table.declareAll, hdecl]
      · cases hd
    | localVar =>
      simp only [Declaring.declare, Storage.scope, Declaring.ofLocal] at hd
      split at hd <;> cases hd
      rfl
  | assign tok target value =>
    cases (layout_eq_ok.mp h).2
    rfl
  | print tok value =>
    cases (layout_eq_ok.mp h).2
    rfl
  | ret tok value =>
    cases (layout_eq_ok.mp h).2
    rfl

end Stmt

theorem declareAll_of_layoutAll {ss : List Stmt} {s s' : Scopes}
    (h : layoutAll (ss.map Stmt.node) s = .ok () s') :
    s.table.declareAll ((ss.map Stmt.node).flatMap Node.declaredGlobals) = .ok s'.table := by
  induction ss generalizing s with
  | nil =>
    cases h
    rfl
  | cons st ss ih =>
    obtain ⟨s₁, hst, hss, _⟩ := layoutAll_cons_eq_ok h
    rw [List.map_cons, List.flatMap_cons]
    exact Table.declareAll_append (Stmt.declareAll_of_layout hst) (ih hss)

/-- A pass that fails has accepted some statements and stopped at the next one, with the
declarations that they made. -/
theorem layoutAll_eq_error {ss : List Stmt} {s s' : Scopes} {h : Halt}
    (he : layoutAll (ss.map Stmt.node) s = .error h s') :
    ∃ before st after, ss = before ++ st :: after ∧
      layoutAll (before.map Stmt.node) s = .ok () s' ∧ st.node.layout s' = .error h s' := by
  induction ss generalizing s with
  | nil => cases he
  | cons st ss ih =>
    simp only [List.map_cons, layoutAll, Bind.bind, EStateM.bind] at he
    cases hst : st.node.layout s with
    | error h₁ s₁ =>
      rw [hst] at he
      cases he
      obtain rfl := Stmt.state_of_layout_error hst
      exact ⟨[], st, ss, rfl, rfl, hst⟩
    | ok u s₁ =>
      rw [hst] at he
      obtain ⟨before, st', after, rfl, hbefore, hst'⟩ := ih he
      refine ⟨st :: before, st', after, rfl, ?_, hst'⟩
      simp only [List.map_cons, layoutAll, Bind.bind, EStateM.bind, hst]
      exact hbefore

namespace Generator

variable {g : Generator} {p : Program} {s : Scopes}

theorem exists_generate_of_layout (hp : p.node.Regular)
    (h : p.node.layout ⟨g.table, {}⟩ = .ok () s) :
    ∃ text g', g.generate p = (.ok text, g') ∧ g'.table = s.table := by
  simp only [generate, Node.layoutFrame_of_layout h, emitProgram, Node.emitThen_empty,
    hp.emit_halt h]
  exact ⟨_, _, rfl, rfl⟩

/-- Where nothing stops the second pass, a program is refused by the first. -/
theorem layout_of_generate_error (hp : p.node.Regular) {g' : Generator} {fault : Fault}
    (hg : g.generate p = (.error fault, g')) :
    ∃ e s, p.node.layout ⟨g.table, {}⟩ = .error (.rejected e) s := by
  cases hs : p.node.layout ⟨g.table, {}⟩ with
  | ok u s =>
    obtain ⟨text, g₁, hok, _⟩ := exists_generate_of_layout hp hs
    cases hok.symm.trans hg
  | error h s =>
    rw [p.node.layout_eq] at hs
    obtain ⟨e, rfl⟩ := actAll_eq_error hp.proper rfl hs
    exact ⟨e, s, rfl⟩

end Generator

/-- A parsed program is refused at one of its statements: those before it are accepted alone, and
with it they are refused in the same way. Nothing is written, and the table gets the globals of the
statements before it, with the same labels and lines as if these had been all. So the generator is
the same as if only these globals had been declared. -/
theorem TokenStream.generate_refused (tokens : TokenStream) {p : Program}
    (hp : tokens.parse.result = .ok p) {g g' : Generator} {fault : Fault}
    (hg : g.generate p = (.error fault, g')) :
    ∃ before st after, p.stmts = before ++ st :: after ∧
      (∃ e, fault = .error (.during "preprocess locals" (.inScope e))) ∧
      g.generate ⟨p.tok, before ++ [st]⟩ = (.error fault, g') ∧
      (∃ text g₁, g.generate ⟨p.tok, before⟩ = (.ok text, g₁) ∧ g₁.table = g'.table) ∧
      g'.output = g.output ∧ g'.lines = g.lines ∧
      g'.table.globals = g.table.globals ++
        Table.entriesFrom g.table.globals.length (before.flatMap Node.declaredGlobals) ∧
      ∃ t, g.table.declareAll (before.flatMap Node.declaredGlobals) = .ok t ∧
        g' = { g with table := t } := by
  obtain ⟨ss, hss, _⟩ := exists_stmts_of_parse hp
  obtain ⟨e, s, hs⟩ := Generator.layout_of_generate_error (regular_of_parse hp) hg
  obtain ⟨hfault, rfl⟩ := Prod.mk.inj ((Generator.generate_of_layout_error hs).symm.trans hg)
  cases hfault
  rw [Program.node, hss, Node.layout] at hs
  obtain ⟨before, st, after, rfl, hbefore, hst⟩ := layoutAll_eq_error hs
  have hdeclare := declareAll_of_layoutAll hbefore
  refine ⟨before.map Stmt.node, st.node, after.map Stmt.node, by simp [hss], ⟨e, rfl⟩, ?_, ?_, rfl,
    rfl, Table.globals_of_declareAll hdeclare, s.table, hdeclare, rfl⟩
  · refine Generator.generate_of_layout_error ?_
    rw [Program.node, Node.layout, layoutAll_append]
    simp only [layoutAll, Bind.bind, EStateM.bind, hbefore, hst]
  · exact Generator.exists_generate_of_layout (regular_program p.tok before) hbefore

/-- In `global int b; global int c = d;` the second statement is refused, so only `b` is added to
what a generator has that knows `a`. -/
theorem TokenStream.generate_refused_initialiser :
    let global₁ : Token := ⟨.keyword .globalWord, "global", 1⟩
    let global₂ : Token := ⟨.keyword .globalWord, "global", 2⟩
    let b : Ident := ⟨⟨.identifier, "b", 1⟩, "b"⟩
    let c : Ident := ⟨⟨.identifier, "c", 2⟩, "c"⟩
    let d : Ident := ⟨⟨.identifier, "d", 2⟩, "d"⟩
    let p : Program := ⟨global₁, [.decl global₁ .globalVar b none,
      .decl global₂ .globalVar c (some (.ident d))]⟩
    let g : Generator := ⟨⟨[⟨"a", "g_a", 3⟩]⟩, "\tnop\n", ["nop"]⟩
    ∃ fault g' before st after, g.generate p = (.error fault, g') ∧
      p.stmts = before ++ st :: after ∧ before.flatMap Node.declaredGlobals = [b] ∧
      g'.output = "\tnop\n" ∧ g'.lines = ["nop"] ∧
      g'.table.globals = [⟨"a", "g_a", 3⟩, ⟨"b", "g_b", 1⟩] := by
  intro global₁ global₂ b c d p g
  let int₁ : Token := ⟨.keyword .intWord, "int", 1⟩
  let int₂ : Token := ⟨.keyword .intWord, "int", 2⟩
  let tokens : TokenStream := ⟨[global₁, int₁, b.tok, ⟨.char ';', ";", 1⟩, global₂, int₂, c.tok,
    ⟨.char '=', "=", 2⟩, d.tok, ⟨.char ';', ";", 2⟩], .endOfFile 2⟩
  have hp : tokens.parse.result = .ok p := rfl
  obtain ⟨fault, g', hg⟩ : ∃ fault g', g.generate p = (.error fault, g') := ⟨_, _, rfl⟩
  obtain ⟨before, st, after, hstmts, _, hst, _, houtput, hlines, hglobals, _⟩ :=
    generate_refused tokens hp hg
  rcases before with _ | ⟨first, _ | ⟨second, before⟩⟩
  · cases hstmts
    cases hst
  · cases hstmts
    exact ⟨fault, g', [_], _, [], hg, rfl, rfl, houtput, hlines, hglobals⟩
  · simp [p] at hstmts

end IntLang
