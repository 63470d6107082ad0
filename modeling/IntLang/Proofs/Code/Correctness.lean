import IntLang.Proofs.Code.Listing
import IntLang.Proofs.Code.Simulation
import IntLang.Proofs.Machine.Stack

/-! The lines of a compiled program, run by the machine from the entry of its function, have the
outcome of the program. -/
namespace IntLang

open Machine

namespace Scopes

variable {s : Scopes}

/-- The places of the variables when all are declared. -/
def place (s : Scopes) : Text → Operand := s.frame.place s.table

/-- All instructions of a body with these statements. -/
def instrs (s : Scopes) (ss : List Stmt) : List Instr :=
  prologue s.frame ++ (ss.flatMap (Stmt.code s.place) ++ closing)

/-- A variable is in its slot or in its cell. -/
theorem place_cases {n : Text} (hn : s.Knows n) :
    (∃ l ∈ s.builder.locals, l.name = n ∧ s.place n = .mem (.slot l.offset)) ∨
      ∃ g ∈ s.table.globals, g.name = n ∧ s.place n = .rel g.label := by
  have hfind : s.frame.find? n = s.builder.find? n := rfl
  rw [Scopes.knows_iff, Option.isSome_iff_exists, Option.isSome_iff_exists] at hn
  unfold place Frame.place Frame.place?
  rw [hfind]
  cases hl : s.builder.find? n with
  | some l =>
    refine .inl ⟨l, List.mem_of_find?_eq_some hl, ?_, rfl⟩
    simpa using List.find?_some hl
  | none =>
    rw [hl] at hn
    obtain ⟨g, hg⟩ := hn.resolve_left (by simp)
    rw [hg]
    refine .inr ⟨g, List.mem_of_find?_eq_some hg, ?_, rfl⟩
    simpa using List.find?_some hg

/-- No slot reaches out of the frame. -/
theorem place_within (h : s.builder.WellFormed) {n : Text} (hn : s.Knows n) :
    (s.place n).Within s.frame.size := by
  rcases place_cases hn with ⟨l, hl, _, hp⟩ | ⟨g, _, _, hp⟩
  · have hb := h.offset_bounds hl
    simp only [frame, Frame.size, wordSize] at hb ⊢
    rw [hp]
    exact .slot (by omega) (by omega)
  · rw [hp]
    exact .rel g.label

theorem WellFormed.placing (h : s.WellFormed) (words : ∀ g ∈ s.table.globals, g.name.IsWord) :
    Placing s.place s.frame.size s.Knows where
  within := fun n hn => place_within h.builder hn
  apart := by
    intro n k hn hk hne
    rcases place_cases hn with ⟨l, hl, rfl, hp⟩ | ⟨g, hg, rfl, hp⟩ <;>
      rcases place_cases hk with ⟨l', hl', rfl, hp'⟩ | ⟨g', hg', rfl, hp'⟩ <;> rw [hp, hp']
    · exact .slots (h.builder.offset_apart hl hl' fun e => hne (e ▸ rfl))
    · exact .slotLabel _ _
    · exact .labelSlot _ _
    · exact .labels fun e => hne (h.table.eq_of_label words hg hg' e ▸ rfl)

theorem WellFormed.place_usual (h : s.WellFormed) {n : Text} (hn : s.Knows n) :
    (s.place n).Usual := by
  rcases place_cases hn with ⟨l, _, _, hp⟩ | ⟨g, hg, _, hp⟩ <;> rw [hp]
  · exact ⟨by simp [Mem.slot, Reg.frameBase, Reg.all], .inl rfl⟩
  · exact h.table.label_all hg

/-- A variable is in the sort of place that its declaration asked for. -/
theorem WellFormed.fits (h : s.WellFormed) {s₁ s₂ : Scopes} {storage : Storage} {id : Ident}
    (hd : Declaring.declare storage.scope id s₁ = .ok () s₂) (hg : s₂.Grows s) :
    storage.Fits (s.place id.name) := by
  have hn : s.Knows id.name := hg.knows (((Declaring.knows_declare hd).2 _).mpr (.inr rfl))
  obtain ⟨hlookup, hlocal⟩ := Declaring.declare_eq_ok hd
  cases storage with
  | localVar =>
    obtain ⟨l, hl⟩ := hlocal rfl
    have hfind := hg.locals.find?_eq_some hl
    have hname : l.name = id.name := by simpa using List.find?_some hl
    have hnone := h.apart l (List.mem_of_find?_eq_some hfind)
    rcases place_cases hn with ⟨l', _, _, hp⟩ | ⟨g, hgl, hgn, _⟩
    · exact ⟨_, hp⟩
    · rw [hname, ← hgn, h.table.find?_name hgl] at hnone
      cases hnone
  | globalVar =>
    obtain ⟨g, hgl⟩ : ∃ g, s₂.table.find? id.name = some g := by
      cases hg : s₂.table.find? id.name with
      | some g => exact ⟨g, rfl⟩
      | none =>
        cases hb : s₂.builder.find? id.name <;>
          simp [Builder.lookup, hb, hg, Storage.scope] at hlookup
    have hfind := hg.globals.find?_eq_some hgl
    rcases place_cases hn with ⟨l, hl, hln, _⟩ | ⟨g', _, _, hp⟩
    · have hnone := h.apart l hl
      rw [hln] at hnone
      cases hnone.symm.trans hfind
    · exact ⟨_, hp⟩

end Scopes

theorem exists_layout_of_mem {ss : List Stmt} {s s' : Scopes}
    (h : layoutAll (ss.map Stmt.node) s = .ok () s') {st : Stmt} (hst : st ∈ ss) :
    ∃ s₁ s₂, st.node.layout s₁ = .ok () s₂ ∧ s₂.Grows s' := by
  induction ss generalizing s with
  | nil => cases hst
  | cons st' ss ih =>
    obtain ⟨s₁, h₁, h₂, hg⟩ := layoutAll_cons_eq_ok h
    rcases List.mem_cons.mp hst with rfl | hst
    · exact ⟨s, s₁, h₁, hg⟩
    · exact ih h₂ hst

theorem Stmt.mem_idents {st : Stmt} {id : Ident} (h : id ∈ st.idents) :
    id ∈ st.uses ∨ ∃ storage, (storage, id) ∈ st.declared := by
  cases st with
  | declare tok storage name init =>
    rcases List.mem_cons.mp h with rfl | h
    · exact .inr ⟨storage, by simp [declared]⟩
    · exact .inl h
  | assign tok target value => exact .inl h
  | print tok value => exact .inl h
  | ret tok value => exact .inl h

theorem Stmt.knows_of_layout {st : Stmt} {s s' : Scopes} (h : st.node.layout s = .ok () s')
    {id : Ident} (hid : id ∈ st.idents) : s'.Knows id.name := by
  rcases mem_idents hid with hu | ⟨storage, hd⟩
  · exact (Node.layout_grows h).knows ((Stmt.layout_eq_ok.mp h).1 id hu)
  · exact ((Declaring.knows_declare (declare_of_layout h hd)).2 _).mpr (.inr rfl)

/-- The cells of the data section: one for each global, and zero at first. -/
def Table.cells (t : Table) (label : Text) : Option Value :=
  if t.globals.any fun g => g.label = label then some (.num 0) else none

/-- The machine when the function is called: the address of the caller is on top of the stack and
nothing is printed yet. What else is in the registers and in the stack is left open. -/
structure Machine.Entered (t : Table) (m : Machine) : Prop where
  caller : ∃ a, m.rsp = .address a ∧ m.stack a = some .caller
  data : m.data = t.cells
  printed : m.printed = []

variable {printer : Printer} {m : Machine}

theorem prologue_after? (f : Frame) {a : Int} (hsp : m.rsp = .address a) :
    ∃ m', m.after? printer (prologue f) = some m' ∧ m'.rbp = .address (a - 8) ∧
      m'.rsp = .address (a - 8 - f.size) ∧ m'.stack (a - 8) = some m.rbp ∧
      m'.stack a = m.stack a ∧ m'.data = m.data ∧ m'.printed = m.printed := by
  let m₁ := { m with rsp := .address (a - 8) }.write (a - 8) m.rbp
  have hpush : m.step printer (.push .frameBase) = some (.next m₁) := by
    simp [step, get?, push?, Reg.frameBase, hsp, m₁]
  let m₂ := { m₁ with rbp := .address (a - 8) }
  have hmov : m₁.step printer (.mov (.reg .frameBase) (.reg .rsp)) = some (.next m₂) := by
    simp [step, movable, Machine.load?, store?, set?, get?, Reg.frameBase, m₁, m₂, write]
  have htop : m₁.stack (a - 8) = some m.rbp := stack_write_self _ _ _
  have habove : m₁.stack a = m.stack a := stack_write_apart (by omega) _ _
  unfold prologue
  by_cases hf : f.size = 0
  · rw [if_pos hf, hf]
    refine ⟨m₂, ?_, rfl, ?_, htop, habove, rfl, rfl⟩
    · simp [after?, hpush, hmov]
    · simp [m₂, m₁, write]
  · rw [if_neg hf]
    have hsub : m₂.step printer (.sub .rsp (.imm f.size)) =
        some (.next { m₂ with rsp := .address (a - 8 - f.size) }) := by
      simp [step, subImm?, get?, set?, m₂, m₁, write]
    refine ⟨{ m₂ with rsp := .address (a - 8 - f.size) }, ?_, rfl, rfl, htop, habove, rfl, rfl⟩
    simp [after?, hpush, hmov, hsub]

/-- After the prologue nothing is declared yet, and every cell is zero. -/
theorem Machine.Entered.holds {s : Scopes} (h : m.Entered s.table) (σ : Store) :
    ∃ m' base, Runs printer (prologue s.frame) m m' ∧ m'.printed = [] ∧
      m'.Holds s.place s.Knows base s.frame.size ⟨{}, {}⟩ σ := by
  obtain ⟨a, hsp, hcaller⟩ := h.caller
  obtain ⟨m', hrun, hbp, hsp', htop, habove, hdata, hout⟩ := prologue_after? s.frame hsp
  refine ⟨m', a - 8, runs_of_after? hrun, hout.trans h.printed, hbp, hsp', ⟨_, htop⟩, ?_, ?_, ?_⟩
  · rw [show a - 8 + 8 = a by omega, habove, hcaller]
  · intro n hn
    simp [Scopes.Knows, Builder.lookup, Builder.find?, Table.find?] at hn
  · intro n label hn _ hp
    rcases Scopes.place_cases hn with ⟨l, _, _, hp'⟩ | ⟨g, hg, _, hp'⟩
    · rw [hp] at hp'
      cases hp'
    · rw [hp] at hp'
      cases hp'
      rw [hdata, h.data, Table.cells, if_pos]
      exact List.any_eq_true.mpr ⟨g, hg, by simp⟩

theorem Stmt.declares_of_idents {P : Text → Prop} {st : Stmt} (h : ∀ id ∈ st.idents, P id.name) :
    ∀ n ∈ st.node.namings, n.Declares P := by
  intro n hn
  rw [namings_node] at hn
  rcases List.mem_append.mp hn with hn | hn
  · obtain ⟨id, _, rfl⟩ := List.mem_map.mp hn
    trivial
  · obtain ⟨d, hd, rfl⟩ := List.mem_map.mp hn
    exact h d.2 (by cases st <;> simp_all [declared, idents])

theorem declares_of_idents {P : Text → Prop} {ss : List Stmt}
    (h : ∀ st ∈ ss, ∀ id ∈ st.idents, P id.name) :
    ∀ n ∈ namingsAll (ss.map Stmt.node), n.Declares P := by
  induction ss with
  | nil => simp [namingsAll]
  | cons st ss ih =>
    rw [List.forall_mem_cons] at h
    exact List.forall_mem_append.mpr ⟨Stmt.declares_of_idents h.1, ih h.2⟩

theorem run_instrs {ss : List Stmt} {s : Scopes}
    (hs : layoutAll (ss.map Stmt.node) ⟨{}, {}⟩ = .ok () s) (hwf : s.WellFormed)
    (words : ∀ g ∈ s.table.globals, g.name.IsWord) (hm : m.Entered s.table) (σ : Store) :
    ∃ m', run printer (s.instrs ss) m = some ((outcome σ ss).ending, m') ∧
      m'.printed = (outcome σ ss).printed := by
  have hfits : ∀ st ∈ ss, ∀ d ∈ st.declared, d.1.Fits (s.place d.2.name) := by
    intro st hst d hd
    obtain ⟨s₁, s₂, hl, hg⟩ := exists_layout_of_mem hs hst
    exact hwf.fits (Stmt.declare_of_layout hl hd) hg
  obtain ⟨m₁, base, hrun, hout, hholds⟩ := hm.holds σ
  obtain ⟨m₂, hrun₂, hout₂⟩ :=
    run_stmts (hwf.placing words) (by omega) hs (fun _ h => h) hfits hholds
  refine ⟨m₂, by rw [Scopes.instrs, hrun, hrun₂], ?_⟩
  rw [hout₂, hout, List.nil_append]

theorem instrs_usual {ss : List Stmt} {s₀ s : Scopes}
    (hs : layoutAll (ss.map Stmt.node) s₀ = .ok () s) (hwf : s.WellFormed) :
    ∀ i ∈ s.instrs ss, i.Usual := by
  refine List.forall_mem_append.mpr ⟨prologue_usual _, ?_⟩
  refine List.forall_mem_append.mpr ⟨?_, closing_usual⟩
  intro i hi
  obtain ⟨st, hst, hi⟩ := List.mem_flatMap.mp hi
  obtain ⟨s₁, s₂, hl, hg⟩ := exists_layout_of_mem hs hst
  refine Stmt.code_usual (fun id hid => ?_) i hi
  exact hwf.place_usual (hg.knows (Stmt.knows_of_layout hl hid))

/-- The lines and the text of a program that is a list of statements. -/
theorem Generator.generate_stmts {g g' : Generator} {p : Program} {ss : List Stmt}
    (hss : p.stmts = ss.map Stmt.node) {text : Text} (hg : g.generate p = (.ok text, g')) :
    ∃ s, layoutAll (ss.map Stmt.node) ⟨g.table, {}⟩ = .ok () s ∧ g'.table = s.table ∧
      g'.lines = g.lines ++ (s.instrs ss).map Instr.text ∧
      text = g.output ++ preamble s.table ++ ((s.instrs ss).map Instr.text).flatMap lineText := by
  obtain ⟨s, is, hs, htable, his, hlines, htext⟩ := generate_eq_ok hg
  rw [Program.node, hss] at hs his
  have hcover : Covers s.frame s.table s := ⟨rfl, List.prefix_rfl, List.prefix_rfl⟩
  obtain rfl : is = s.instrs ss := by
    rw [his, Node.emit, (hcover.gives_stmts hs).instrs, Scopes.instrs, Scopes.place]
  exact ⟨s, hs, htable, hlines, htext⟩

/-- The lines of a program whose names are words have the outcome of its statements, whatever the
variables hold at first. -/
theorem Generator.outcome?_lines {p : Program} {ss : List Stmt} (hss : p.stmts = ss.map Stmt.node)
    (words : ∀ st ∈ ss, ∀ id ∈ st.idents, id.name.IsWord) {text : Text} {g : Generator}
    (hg : ({} : Generator).generate p = (.ok text, g)) (hm : m.Entered g.table) (σ : Store) :
    m.outcome? printer g.lines = some (outcome σ ss) := by
  obtain ⟨s, hs, htable, hlines, _⟩ := generate_stmts hss hg
  rw [htable] at hm
  have hext : Scopes.Extends Text.IsWord ⟨{}, {}⟩ s :=
    (Node.program .zero (ss.map Stmt.node)).layout_extends (declares_of_idents words) hs
  have hwf : s.WellFormed := Scopes.wellFormed_empty.extends hext
  have hread : g.lines.mapM Instr.ofLine? = some (s.instrs ss) := by
    rw [hlines]
    exact Instr.mapM_ofLine?_text (instrs_usual hs hwf)
  obtain ⟨m', hrun, hout⟩ := run_instrs hs hwf (hext.named (by simp)) hm σ
  rw [outcome?_of_run hread hrun, hout]

/-- Compiled code has the outcome of its source. What the parser accepts is a list of statements,
and the lines written for it, run from the entry of the function, have the outcome of these
statements, whatever printing does to the registers and the part of the stack it may use. -/
theorem Reader.outcome?_of_generate (r : Reader) {p : Program} (hp : r.parse.result = .ok p)
    {text : Text} {g : Generator} (hg : ({} : Generator).generate p = (.ok text, g)) :
    (∃ ss : List Stmt, p.stmts = ss.map Stmt.node) ∧
    ∀ ss : List Stmt, p.stmts = ss.map Stmt.node → ∀ (printer : Printer) (m : Machine),
      m.Entered g.table → ∀ σ, m.outcome? printer g.lines = some (outcome σ ss) := by
  obtain ⟨ss, hss, written⟩ := TokenStream.exists_stmts_of_parse hp
  refine ⟨⟨ss, hss⟩, ?_⟩
  intro ss' hss' printer m hm σ
  obtain rfl : ss' = ss := (List.map_inj_right Stmt.node_inj).mp (hss'.symm.trans hss)
  refine Generator.outcome?_lines hss ?_ hg hm σ
  intro st hst id hid
  obtain ⟨t, ht, hk, rfl⟩ := written st hst id hid
  exact r.scan_isWord t ht hk

theorem Reader.outcome?_of_generate_quotient :
    ∃ (p : Program) (text : Text) (g : Generator) (m : Machine),
      (ofText "print 7/2;").parse.result = .ok p ∧ ({} : Generator).generate p = (.ok text, g) ∧
        m.Entered g.table ∧ ∀ printer, m.outcome? printer g.lines = some ⟨[3], .value 0⟩ := by
  let word : Token := ⟨.keyword .printWord, "print", 1⟩
  let seven : Token := ⟨.intLiteral, "7", 1⟩
  let slash : Token := ⟨.char '/', "/", 1⟩
  let two : Token := ⟨.intLiteral, "2", 1⟩
  let semicolon : Token := ⟨.char ';', ";", 1⟩
  have hcut : Cut [] "print 7/2;".toList [word, seven, slash, two, semicolon] :=
    .of_pieces [([], "print".toList), ([' '], ['7']), ([], ['/']), ([], ['2']), ([], [';'])] rfl
  have hscan : (ofText "print 7/2;").scan.1 =
      ⟨[word, seven, slash, two, semicolon], .endOfFile 1⟩ :=
    (at_ofText "print 7/2;".toList).scan_cut hcut
  let st : Stmt := .print word (.binary slash .div (.int seven 7) (.int two 2))
  let p : Program := ⟨word, [st.node]⟩
  let g : Generator := (({} : Generator).generate p).2
  have hp : (ofText "print 7/2;").parse.result = .ok p := by
    rw [Reader.parse, hscan]
    rfl
  have hg : ({} : Generator).generate p = (.ok g.output, g) := rfl
  let m : Machine := ⟨.num 0, .num 0, .num 0, .num 0, .num 0, .num 0, .address 0,
    fun _ => some .caller, fun _ => none, []⟩
  have hm : m.Entered g.table := ⟨⟨0, rfl, rfl⟩, rfl, rfl⟩
  refine ⟨p, g.output, g, m, hp, hg, hm, fun printer => ?_⟩
  exact (outcome?_of_generate _ hp hg).2 [st] rfl printer m hm fun _ => 0

end IntLang
