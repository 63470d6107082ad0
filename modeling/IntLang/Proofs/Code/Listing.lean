import IntLang.Proofs.Code.Straight
import IntLang.Proofs.Machine.Lines
import IntLang.Proofs.Scope.Places

/-! The lines that a generator writes. All of them are texts of usual instructions, so that the
machine reads back exactly what was meant. -/
namespace IntLang

theorem labelFor_all (name : Text) (index : Nat) :
    (labelFor name index).all Glyph.isLabelPart = true := by
  unfold labelFor
  split
  · rename_i h
    rw [List.all_append, h, Bool.and_true]
    decide
  · have hd : (Decimal.ofNat index).all Glyph.isLabelPart = true := by
      rw [List.all_eq_true]
      intro g hg
      obtain ⟨c, hc, rfl⟩ := List.mem_map.mp hg
      have := Nat.isDigit_of_mem_toDigits (by omega) (by omega) hc
      simp [Glyph.isLabelPart, Char.isAlphanum, this]
    rw [List.all_append, hd, Bool.and_true]
    decide

theorem Table.WellFormed.label_all {t : Table} (h : t.WellFormed) {g : Global}
    (hg : g ∈ t.globals) : g.label.all Glyph.isLabelPart = true := by
  obtain ⟨i, hi⟩ := List.mem_iff_getElem?.mp hg
  rw [h.labels i g hi]
  exact labelFor_all g.name i

/-- The operand is a place in memory. -/
def Operand.isMemory : Operand → Bool
  | .mem _ => true
  | .rel _ => true
  | _ => false

theorem Instr.not_isMemory {is : List Instr}
    (h : (is.all fun i => i.operands.all fun o => !o.isMemory) = true) {i : Instr} (hi : i ∈ is)
    {o : Operand} (ho : o ∈ i.operands) : ¬ o.isMemory = true := by
  have hall := List.all_eq_true.mp (List.all_eq_true.mp h i hi) o ho
  simpa using hall

section

variable {place : Text → Operand}

theorem Operator.code_usual (op : Operator) : ∀ i ∈ op.code, i.Usual := by
  cases op <;> simp [code, Instr.Usual, Operand.Usual, Reg.accumulator, Reg.all]

theorem Expr.code_usual {e : Expr} (h : ∀ id ∈ e.idents, (place id.name).Usual) :
    ∀ i ∈ e.code place, i.Usual := by
  induction e with
  | int tok value => simp [code, Instr.Usual, Operand.Usual, Reg.accumulator, Reg.all]
  | var id =>
    have := h id (by simp [idents])
    simpa [code, Instr.Usual, Operand.Usual, Reg.accumulator, Reg.all] using this
  | binary tok op left right ihl ihr =>
    simp only [idents, List.mem_append] at h
    intro i hi
    simp only [code, List.mem_append] at hi
    rcases hi with hi | hi | hi | hi | hi
    · exact ihl (fun id hid => h id (.inl hid)) i hi
    · obtain rfl : i = .push .accumulator := by simpa using hi
      simp [Instr.Usual, Reg.accumulator, Reg.all]
    · exact ihr (fun id hid => h id (.inr hid)) i hi
    · simp only [List.mem_cons, List.not_mem_nil, or_false] at hi
      rcases hi with rfl | rfl <;>
        simp [Instr.Usual, Operand.Usual, Reg.accumulator, Reg.all]
    · exact op.code_usual i hi

theorem Operand.Usual.quad {o : Operand} (h : o.Usual) : o.quad.Usual := by
  cases o with
  | mem m => exact ⟨h.1, .inr rfl⟩
  | reg r => exact h
  | imm value => exact h
  | rel label => exact h

theorem epilogue_usual : ∀ i ∈ epilogue, i.Usual := by
  simp [epilogue, Instr.Usual, Operand.Usual, Reg.frameBase, Reg.all]

theorem printCode_usual : ∀ i ∈ printCode, i.Usual := by
  have hformat : List.all printFormat Glyph.isLabelPart = true := by decide
  have hfunction : List.all printFunction Glyph.isLabelPart = true := by decide
  simp [printCode, clearResult, Instr.Usual, Operand.Usual, Reg.accumulator, Reg.all,
    -List.all_eq_true, hformat, hfunction]

theorem closing_usual : ∀ i ∈ closing, i.Usual := by
  refine List.forall_mem_cons.mpr ⟨?_, epilogue_usual⟩
  simp [clearResult, Instr.Usual, Reg.all]

theorem prologue_usual (f : Frame) : ∀ i ∈ prologue f, i.Usual := by
  unfold prologue
  split <;> simp [Instr.Usual, Operand.Usual, Reg.frameBase, Reg.all]

theorem Stmt.code_usual {st : Stmt} (h : ∀ id ∈ st.idents, (place id.name).Usual) :
    ∀ i ∈ st.code place, i.Usual := by
  have hstore {o : Operand} (ho : o.Usual) : Instr.Usual (.mov o (.reg .accumulator)) :=
    ⟨ho, by simp [Operand.Usual, Reg.accumulator, Reg.all]⟩
  cases st with
  | declare tok storage name init =>
    rw [idents, List.forall_mem_cons] at h
    cases init with
    | none =>
      cases storage with
      | globalVar => simp [code, Storage.clear]
      | localVar =>
        intro i hi
        obtain rfl : i = .mov (place name.name).quad (.imm 0) := by
          simpa [code, Storage.clear] using hi
        exact ⟨h.1.quad, trivial⟩
    | some init =>
      exact List.forall_mem_append.mpr ⟨Expr.code_usual h.2, by simpa using hstore h.1⟩
  | assign tok target value =>
    rw [idents, List.forall_mem_cons] at h
    exact List.forall_mem_append.mpr ⟨Expr.code_usual h.2, by simpa using hstore h.1⟩
  | print tok value => exact List.forall_mem_append.mpr ⟨Expr.code_usual h, printCode_usual⟩
  | ret tok value =>
    cases value with
    | none => exact closing_usual
    | some value => exact List.forall_mem_append.mpr ⟨Expr.code_usual h, epilogue_usual⟩

/-- The only memory that the code of an expression uses is that of its variables. -/
theorem Expr.mem_operands {e : Expr} {i : Instr} (hi : i ∈ e.code place) {o : Operand}
    (ho : o ∈ i.operands) (hm : o.isMemory = true) : ∃ id ∈ e.idents, place id.name = o := by
  induction e with
  | int tok value =>
    rw [List.mem_singleton.mp hi] at ho
    simp only [Instr.operands, List.mem_cons, List.not_mem_nil, or_false] at ho
    rcases ho with rfl | rfl <;> cases hm
  | var id =>
    rw [List.mem_singleton.mp hi] at ho
    rcases List.mem_cons.mp ho with rfl | ho
    · cases hm
    · exact ⟨id, by simp [idents], (List.mem_singleton.mp ho).symm⟩
  | binary tok op left right ihl ihr =>
    simp only [code, List.mem_append] at hi
    simp only [idents, List.mem_append]
    rcases hi with hi | hi | hi | hi | hi
    · obtain ⟨id, hid, hp⟩ := ihl hi
      exact ⟨id, .inl hid, hp⟩
    · rw [List.mem_singleton.mp hi] at ho
      cases ho
    · obtain ⟨id, hid, hp⟩ := ihr hi
      exact ⟨id, .inr hid, hp⟩
    · exact absurd hm (Instr.not_isMemory (by decide) hi ho)
    · exact absurd hm (Instr.not_isMemory (by cases op <;> decide) hi ho)

/-- What a statement finds in memory: its variables, and the format of numbers. -/
theorem Stmt.mem_operands {st : Stmt} {i : Instr} (hi : i ∈ st.code place) {o : Operand}
    (ho : o ∈ i.operands) (hm : o.isMemory = true) :
    (∃ id ∈ st.idents, place id.name = o ∨ (place id.name).quad = o) ∨ o = .rel printFormat := by
  have hvalue {e : Expr} (he : ∀ id ∈ e.idents, id ∈ st.idents) (hi : i ∈ e.code place) :
      ∃ id ∈ st.idents, place id.name = o ∨ (place id.name).quad = o := by
    obtain ⟨id, hid, hp⟩ := Expr.mem_operands hi ho hm
    exact ⟨id, he id hid, .inl hp⟩
  have hstore {id : Ident} (hid : id ∈ st.idents) {dst src : Operand}
      (hdst : place id.name = dst ∨ (place id.name).quad = dst) (hsrc : src.isMemory = false)
      (hi : i ∈ [.mov dst src]) :
      ∃ id ∈ st.idents, place id.name = o ∨ (place id.name).quad = o := by
    rw [List.mem_singleton.mp hi] at ho
    rcases List.mem_cons.mp ho with rfl | ho
    · exact ⟨id, hid, hdst⟩
    · rw [List.mem_singleton.mp ho, hsrc] at hm
      cases hm
  have hleave (hi : i ∈ closing) : False :=
    Instr.not_isMemory (by decide) hi ho hm
  cases st with
  | declare tok storage name init =>
    cases init with
    | none =>
      cases storage with
      | globalVar => cases hi
      | localVar => exact .inl (hstore (by simp [idents]) (.inr rfl) rfl hi)
    | some init =>
      rcases List.mem_append.mp hi with hi | hi
      · exact .inl (hvalue (fun id hid => List.mem_cons_of_mem _ hid) hi)
      · exact .inl (hstore (by simp [idents]) (.inl rfl) rfl hi)
  | assign tok target value =>
    rcases List.mem_append.mp hi with hi | hi
    · exact .inl (hvalue (fun id hid => List.mem_cons_of_mem _ hid) hi)
    · exact .inl (hstore (by simp [idents]) (.inl rfl) rfl hi)
  | print tok value =>
    rcases List.mem_append.mp hi with hi | hi
    · exact .inl (hvalue (fun id hid => hid) hi)
    · rcases List.mem_cons.mp hi with rfl | hi
      · exact absurd hm (Instr.not_isMemory (by decide) (List.mem_singleton_self _) ho)
      rcases List.mem_cons.mp hi with rfl | hi
      · exact .inr (List.mem_singleton.mp ho)
      · exact absurd hm (Instr.not_isMemory (by decide) hi ho)
  | ret tok value =>
    cases value with
    | none => exact (hleave hi).elim
    | some value =>
      rcases List.mem_append.mp hi with hi | hi
      · exact .inl (hvalue (fun id hid => hid) hi)
      · exact (hleave (List.mem_cons_of_mem _ hi)).elim

end

/-- The frame of a body with these declarations. -/
def Scopes.frame (s : Scopes) : Frame := ⟨s.builder.locals, true⟩

theorem Node.layoutFrame_of_layout {n : Node} {t : Table} {s : Scopes}
    (h : n.layout ⟨t, {}⟩ = .ok () s) : n.layoutFrame t = (.ok s.frame, s.table) := by
  have hopen : s.builder.finished = false := (Node.layout_grows h).finished
  have hf := Builder.finish_eq_ok.mpr ⟨hopen, rfl, rfl⟩
  simp only [layoutFrame, h, hf, Except.map, Scopes.frame]

/-- A program that is accepted adds its prologue, its body and its closing to the lines, and the
text of them to all that stands before. -/
theorem Generator.generate_eq_ok {g g' : Generator} {p : Program} {text : Text}
    (h : g.generate p = (.ok text, g')) :
    ∃ s is, p.node.layout ⟨g.table, {}⟩ = .ok () s ∧ g'.table = s.table ∧
      is = prologue s.frame ++ ((p.node.emit s.frame s.table).instrs ++ closing) ∧
      g'.lines = g.lines ++ is.map Instr.text ∧
      text = g.output ++ preamble s.table ++ (is.map Instr.text).flatMap lineText := by
  unfold generate at h
  cases hs : p.node.layout ⟨g.table, {}⟩ with
  | error halt s => simp [Node.layoutFrame, hs] at h
  | ok _ s =>
    refine ⟨s, prologue s.frame ++ ((p.node.emit s.frame s.table).instrs ++ closing), rfl, ?_⟩
    simp only [Node.layoutFrame_of_layout hs, emitProgram, Node.emitThen_empty] at h
    split at h
    · obtain ⟨htext, rfl⟩ := Prod.mk.inj h
      cases htext
      simp [emitInstrs, emitLines]
    · cases h
    · cases h

/-- The lines of a program that makes these declarations. -/
def Scopes.lines (s : Scopes) (p : Program) : List Text :=
  (prologue s.frame ++ ((p.node.emit s.frame s.table).instrs ++ closing)).map Instr.text

/-- Where the first pass over a parsed program succeeds, nothing stops the second. -/
theorem Node.Regular.emit_halt {n : Node} (hn : n.Regular) {s₀ s : Scopes}
    (h : n.layout s₀ = .ok () s) : (n.emit s.frame s.table).halt = none := by
  have hcover : Covers s.frame s.table s := ⟨rfl, List.prefix_rfl, List.prefix_rfl⟩
  rw [hn.plain.emit_halt _ _ h hcover, badOperator?_eq_none hn.arithmetic]

/-- If nothing stops either pass, the program is accepted with the text of its lines. -/
theorem Generator.generate_of_layout {p : Program} {s : Scopes}
    (h : p.node.layout ⟨{}, {}⟩ = .ok () s) (hhalt : (p.node.emit s.frame s.table).halt = none) :
    let text := preamble s.table ++ (s.lines p).flatMap lineText
    ({} : Generator).generate p = (.ok text, ⟨s.table, text, s.lines p⟩) := by
  simp only [generate, Node.layoutFrame_of_layout h, emitProgram, Node.emitThen_empty, hhalt]
  simp [emitInstrs, emitLines, Scopes.lines]

/-- If the first pass fails, its error is told and the globals it declared stay. -/
theorem Generator.generate_of_layout_error {g : Generator} {p : Program} {h : Halt} {s : Scopes}
    (he : p.node.layout ⟨g.table, {}⟩ = .error h s) : g.generate p =
      (.error ((Fault.ofHalt h).during "preprocess locals"), { g with table := s.table }) := by
  simp only [generate, Node.layoutFrame, he]

theorem Generator.generate_of_rejected {p : Program} {e : SemanticError} {s : Scopes}
    (h : p.node.layout ⟨{}, {}⟩ = .error (.rejected e) s) : ({} : Generator).generate p =
      (.error (.error (.during "preprocess locals" (.inScope e))), { table := s.table }) :=
  generate_of_layout_error (g := {}) (h := .rejected e) h

end IntLang
