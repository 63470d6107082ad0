import IntLang.Proofs.Code.Resolution

/-! The code of a program whose names are all resolved: it depends on the tree and on the places
of the variables, and on nothing else. -/
namespace IntLang

/-- Nothing stops the second pass, and it writes these instructions. -/
structure Emission.Gives (e : Emission) (is : List Instr) : Prop where
  halt : e.halt = none
  instrs : e.instrs = is

namespace Emission

theorem gives_ofInstrs (is : List Instr) : (ofInstrs is).Gives is := by
  refine ⟨rfl, ?_⟩
  induction is with
  | nil => rfl
  | cons i is ih =>
    rw [instrs, ofInstrs, List.map_cons, List.flatMap_cons]
    exact congrArg (i :: ·) ih

theorem gives_leave : Gives { code := [.leave] } epilogue := ⟨rfl, rfl⟩

theorem Gives.andThen {a b : Emission} {is js : List Instr} (ha : a.Gives is) (hb : b.Gives js) :
    (a.andThen b).Gives (is ++ js) := by
  have h : a.andThen b = ⟨a.code ++ b.code, b.halt⟩ := by simp [Emission.andThen, ha.halt]
  rw [h, ← ha.instrs, ← hb.instrs]
  exact ⟨hb.halt, List.flatMap_append⟩

end Emission

def Operator.code : Operator → List Instr
  | .add => [.add .accumulator .rcx]
  | .sub => [.sub .accumulator (.reg .rcx)]
  | .mul => [.imul .accumulator .rcx]
  | .div => [.cqo, .idiv .rcx]

theorem Operator.gives_code (op : Operator) : (operatorCode op.kind).Gives op.code := by
  cases op <;> exact Emission.gives_ofInstrs _

/-- The place of a variable that has one. -/
def Frame.place (f : Frame) (t : Table) (name : Text) : Operand := (f.place? t name).getD (.imm 0)

/-- The size is written where only a constant could tell it. -/
def Operand.quad : Operand → Operand
  | .mem m => .mem m.quad
  | o => o

/-- The left operand waits on the stack while the right one is computed. -/
def Expr.code (place : Text → Operand) : Expr → List Instr
  | .int _ value => [.mov (.reg .accumulator) (.imm value.toInt)]
  | .var id => [.mov (.reg .accumulator) (place id.name)]
  | .binary _ op left right =>
    left.code place ++ ([.push .accumulator] ++ (right.code place ++
      ([.mov (.reg .rcx) (.reg .accumulator), .pop .accumulator] ++ op.code)))

/-- A global is zero from the start, a local has to be cleared. -/
def Storage.clear (place : Operand) : Storage → List Instr
  | .globalVar => []
  | .localVar => [.mov place.quad (.imm 0)]

def Stmt.code (place : Text → Operand) : Stmt → List Instr
  | .declare _ storage name none => storage.clear (place name.name)
  | .declare _ _ name (some init) =>
    init.code place ++ [.mov (place name.name) (.reg .accumulator)]
  | .assign _ target value => value.code place ++ [.mov (place target.name) (.reg .accumulator)]
  | .print _ value => value.code place ++ printCode
  | .ret _ none => [clearResult] ++ epilogue
  | .ret _ (some value) => value.code place ++ epilogue

/-- The name was declared. -/
def Scopes.Knows (s : Scopes) (name : Text) : Prop := s.builder.lookup s.table name ≠ .unknown

theorem Scopes.knows_iff {s : Scopes} {name : Text} : s.Knows name ↔
    (s.builder.find? name).isSome = true ∨ (s.table.find? name).isSome = true := by
  unfold Knows Builder.lookup
  cases s.builder.find? name <;> cases s.table.find? name <;> simp

theorem Scopes.Grows.knows {s s' : Scopes} (h : s.Grows s') {name : Text} (hn : s.Knows name) :
    s'.Knows name := by
  rw [Scopes.knows_iff, Option.isSome_iff_exists, Option.isSome_iff_exists] at hn ⊢
  rcases hn with ⟨l, hl⟩ | ⟨g, hg⟩
  · exact .inl ⟨l, h.locals.find?_eq_some hl⟩
  · exact .inr ⟨g, h.globals.find?_eq_some hg⟩

/-- Exactly one name is added, and it was not there before. -/
theorem Declaring.knows_declare {storage : Storage} {id : Ident} {s s' : Scopes}
    (h : declare storage.scope id s = .ok () s') :
    ¬ s.Knows id.name ∧ ∀ n, s'.Knows n ↔ s.Knows n ∨ n = id.name := by
  simp only [Scopes.knows_iff]
  cases storage with
  | globalVar =>
    simp only [declare, Storage.scope, ofGlobal] at h
    split at h
    · rename_i t ht
      cases h
      obtain ⟨_, hb, ht⟩ := Builder.declareGlobal_eq_ok.mp ht
      obtain ⟨hn, rfl⟩ := Table.declare_eq_ok.mp ht
      refine ⟨by simp [hb, hn], fun n => ?_⟩
      simp only [Table.find?, List.find?_append, Option.isSome_or, Bool.or_eq_true, or_assoc,
        List.find?_singleton, Table.entry, @eq_comm _ n]
      split <;> simp_all
    · cases h
  | localVar =>
    simp only [declare, Storage.scope, ofLocal] at h
    split at h
    · rename_i b hb
      cases h
      obtain ⟨_, hn, ht, rfl⟩ := Builder.declareLocal_eq_ok.mp hb
      refine ⟨by simp [hn, ht], fun n => ?_⟩
      simp only [Builder.find?, List.find?_append, Option.isSome_or, Bool.or_eq_true, or_right_comm,
        List.find?_singleton, Builder.entry, @eq_comm _ n]
      split <;> simp_all
    · cases h

/-- The names a statement uses, in the order in which they are looked for. -/
def Stmt.uses : Stmt → List Ident
  | .declare _ _ _ init => init.elim [] Expr.idents
  | .assign _ target value => target :: value.idents
  | .print _ value => value.idents
  | .ret _ value => value.elim [] Expr.idents

/-- What a statement declares after these uses. -/
def Stmt.declared : Stmt → List (Storage × Ident)
  | .declare _ storage name _ => [(storage, name)]
  | _ => []

theorem Stmt.namings_node (st : Stmt) : st.node.namings =
    st.uses.map .use ++ st.declared.map fun d => .declare d.1.scope d.2 := by
  cases st with
  | declare tok storage name init =>
    cases init with
    | none => rfl
    | some init => simp [node, Node.namings, Expr.namings_node, uses, declared]
  | assign tok target value => simp [node, Node.namings, Expr.namings_node, uses, declared]
  | print tok value => simp [node, Node.namings, Expr.namings_node, uses, declared]
  | ret tok value =>
    cases value with
    | none => rfl
    | some value => simp [node, Node.namings, Expr.namings_node, uses, declared]

theorem actAll_uses_eq_ok {ids : List Ident} {ns : List Naming} {s s' : Scopes} :
    actAll (ids.map .use ++ ns) s = .ok () s' ↔
      (∀ id ∈ ids, s.Knows id.name) ∧ actAll ns s = .ok () s' := by
  induction ids with
  | nil => simp
  | cons id ids ih =>
    rw [List.map_cons, List.cons_append, actAll, Declaring.bind_eq_ok, List.forall_mem_cons,
      and_assoc, ← ih]
    constructor
    · rintro ⟨_, s₁, h, h'⟩
      obtain ⟨hk, rfl⟩ := Declaring.use_eq_ok.mp h
      exact ⟨hk, h'⟩
    · rintro ⟨hk, h'⟩
      exact ⟨(), s, Declaring.use_eq_ok.mpr ⟨hk, rfl⟩, h'⟩

/-- The first pass over a statement needs the names that it uses, and then declares. -/
theorem Stmt.layout_eq_ok {st : Stmt} {s s' : Scopes} : st.node.layout s = .ok () s' ↔
    (∀ id ∈ st.uses, s.Knows id.name) ∧
      actAll (st.declared.map fun d => .declare d.1.scope d.2) s = .ok () s' := by
  rw [Node.layout_eq, namings_node, actAll_uses_eq_ok]

theorem Stmt.declare_of_layout {st : Stmt} {s s' : Scopes} (h : st.node.layout s = .ok () s')
    {d : Storage × Ident} (hd : d ∈ st.declared) :
    Declaring.declare d.1.scope d.2 s = .ok () s' := by
  obtain ⟨_, h⟩ := Stmt.layout_eq_ok.mp h
  cases st with
  | declare tok storage name init =>
    obtain rfl : d = (storage, name) := by simpa [declared] using hd
    simpa [declared, actAll, Naming.act] using h
  | assign tok target value => cases hd
  | print tok value => cases hd
  | ret tok value => cases hd

/-- The first pass over a list: the first statement, then the others, which keep what it
declared. -/
theorem layoutAll_cons_eq_ok {st : Stmt} {ss : List Stmt} {s s' : Scopes}
    (h : layoutAll ((st :: ss).map Stmt.node) s = .ok () s') :
    ∃ s₁, st.node.layout s = .ok () s₁ ∧ layoutAll (ss.map Stmt.node) s₁ = .ok () s' ∧
      s₁.Grows s' := by
  rw [List.map_cons, layoutAll] at h
  obtain ⟨_, s₁, h₁, h₂⟩ := Declaring.bind_eq_ok.mp h
  exact ⟨s₁, h₁, h₂, Node.layout_grows (n := .program .zero (ss.map Stmt.node)) h₂⟩

namespace Covers

variable {f : Frame} {t : Table} {s : Scopes}

theorem place?_eq (h : Covers f t s) {name : Text} (hn : s.Knows name) :
    f.place? t name = some (f.place t name) := by
  obtain ⟨place, hp⟩ := h.place? hn
  rw [Frame.place, hp, Option.getD_some]

theorem gives_emit (h : Covers f t s) {id : Ident} (hn : s.Knows id.name)
    (code : Operand → List Instr) : (id.emit f t code).Gives (code (f.place t id.name)) := by
  rw [Ident.emit_eq h.fixed (h.place?_eq hn)]
  exact Emission.gives_ofInstrs _

theorem gives_expr (h : Covers f t s) {e : Expr} (he : ∀ id ∈ e.idents, s.Knows id.name) :
    (e.node.emit f t).Gives (e.code (f.place t)) := by
  induction e with
  | int tok value => exact Emission.gives_ofInstrs _
  | var id => exact h.gives_emit (he id (by simp [Expr.idents])) _
  | binary tok op left right ihl ihr =>
    simp only [Expr.idents, List.mem_append] at he
    refine (ihl fun id hid => he id (.inl hid)).andThen ?_
    refine (Emission.gives_ofInstrs _).andThen ?_
    refine (ihr fun id hid => he id (.inr hid)).andThen ?_
    exact (Emission.gives_ofInstrs _).andThen op.gives_code

/-- A local that the statement declares is in the frame. -/
theorem place_of_declare_local {s' : Scopes} (h : Covers f t s') {id : Ident}
    (hd : Declaring.declare .localVar id s = .ok () s') :
    ∃ l, f.find? id.name = some l ∧ f.place t id.name = .mem (.slot l.offset) := by
  obtain ⟨l, hl⟩ := (Declaring.declare_eq_ok hd).2 rfl
  have hf := h.find?_local hl
  exact ⟨l, hf, by simp [Frame.place, Frame.place?, hf]⟩

theorem gives_stmt {s' : Scopes} (h : Covers f t s') {st : Stmt}
    (hs : st.node.layout s = .ok () s') : (st.node.emit f t).Gives (st.code (f.place t)) := by
  have hc : Covers f t s := h.of_grows (Node.layout_grows hs)
  obtain ⟨hu, hd⟩ := Stmt.layout_eq_ok.mp hs
  cases st with
  | declare tok storage name init =>
    have hdecl := Stmt.declare_of_layout hs (d := (storage, name)) (by simp [Stmt.declared])
    cases init with
    | none =>
      cases storage with
      | globalVar => exact ⟨rfl, rfl⟩
      | localVar =>
        obtain ⟨l, hl, hp⟩ := h.place_of_declare_local hdecl
        rw [Stmt.node, Option.map_none, Node.emit, if_pos (by rfl), Ident.clear,
          Frame.localOffset_of_find? h.fixed hl, Stmt.code, hp]
        exact Emission.gives_ofInstrs _
    | some init =>
      have hn : s'.Knows name.name := ((Declaring.knows_declare hdecl).2 _).mpr (.inr rfl)
      exact (hc.gives_expr hu).andThen (h.gives_emit hn _)
  | assign tok target value =>
    simp only [Stmt.uses, List.forall_mem_cons] at hu
    exact (hc.gives_expr hu.2).andThen (hc.gives_emit hu.1 _)
  | print tok value => exact (hc.gives_expr hu).andThen (Emission.gives_ofInstrs _)
  | ret tok value =>
    cases value with
    | none => exact (Emission.gives_ofInstrs _).andThen Emission.gives_leave
    | some value => exact (hc.gives_expr hu).andThen Emission.gives_leave

/-- After the first pass, the second writes the code of the statements in order. -/
theorem gives_stmts {s' : Scopes} (h : Covers f t s') {ss : List Stmt}
    (hs : layoutAll (ss.map Stmt.node) s = .ok () s') :
    (emitAll f t (ss.map Stmt.node)).Gives (ss.flatMap (Stmt.code (f.place t))) := by
  induction ss generalizing s with
  | nil => exact ⟨rfl, rfl⟩
  | cons st ss ih =>
    obtain ⟨s₁, h₁, h₂, hg⟩ := layoutAll_cons_eq_ok hs
    rw [List.map_cons, emitAll, List.flatMap_cons]
    exact ((h.of_grows hg).gives_stmt h₁).andThen (ih h₂)

end Covers
end IntLang
