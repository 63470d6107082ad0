import IntLang.Proofs.Code.Correctness

/-! The stack under compiled code. Between statements it ends with the frame; inside one it holds
the left operands that wait, all of them below the frame. -/
namespace IntLang

open Machine

/-- The memory is eight bytes of the frame below this base. -/
def Machine.InFrame (m : Machine) (base size : Int) (q : Mem) : Prop :=
  ∃ a, m.address? q = some a ∧ base - size ≤ a ∧ a + 8 ≤ base

/-- The operations in an expression: the code before each of them, and its operands. -/
def Expr.operations (place : Text → Operand) (before : List Instr) :
    Expr → List (List Instr × Expr × Expr)
  | .int _ _ => []
  | .var _ => []
  | .binary _ _ left right =>
    (before, left, right) :: (left.operations place before ++
      right.operations place (before ++ (left.code place ++ [.push .accumulator])))

namespace Stmt

/-- The expression that a statement computes first. -/
def value? : Stmt → Option Expr
  | .declare _ _ _ init => init
  | .assign _ _ value => some value
  | .print _ value => some value
  | .ret _ value => value

def valueCode (place : Text → Operand) (st : Stmt) : List Instr :=
  st.value?.elim [] (Expr.code place)

/-- What is done with the value. -/
def useCode (place : Text → Operand) : Stmt → List Instr
  | .declare _ storage name none => storage.clear (place name.name)
  | .declare _ _ name (some _) => [.mov (place name.name) (.reg .accumulator)]
  | .assign _ target _ => [.mov (place target.name) (.reg .accumulator)]
  | .print _ _ => printCode
  | .ret _ none => closing
  | .ret _ (some _) => epilogue

theorem code_eq (place : Text → Operand) (st : Stmt) :
    st.code place = st.valueCode place ++ st.useCode place := by
  cases st with
  | declare tok storage name init => cases init <;> rfl
  | assign tok target value => rfl
  | print tok value => rfl
  | ret tok value => cases value <;> rfl

def operations (place : Text → Operand) (st : Stmt) : List (List Instr × Expr × Expr) :=
  st.value?.elim [] (Expr.operations place [])

/-- The stack while the code of a statement runs from `m`. The function was entered in the state
`entry`, and `base` is the address of its frame. -/
structure StackSafe (printer : Printer) (place : Text → Operand) (entry : Machine)
    (base size : Int) (m : Machine) (st : Stmt) : Prop where
  start : m.rbp = .address base ∧ m.rsp = .address (base - size)
  finish : ∀ m', m.after? printer (st.code place) = some m' →
    m'.rbp = .address base ∧ m'.rsp = .address (base - size)
  nonneg : ∀ us vs, st.code place = us ++ vs → 0 ≤ pushDepth us
  /-- What is taken from the stack is the left operand of an operation, put there by the same
  operation when it was computed. -/
  pop : ∀ us vs, st.code place = us ++ .pop .accumulator :: vs →
    ∃ before left right, (before, left, right) ∈ st.operations place ∧
      us = before ++ left.code place ++ (.push .accumulator ::
        (right.code place ++ [.mov (.reg .rcx) (.reg .accumulator)])) ∧
      ∀ m', m.after? printer us = some m' →
        ∃ m₁, m.after? printer (before ++ left.code place) = some m₁ ∧
          m'.pop?.map Prod.fst = some m₁.rax
  /-- A push writes the eight bytes below the stack pointer. -/
  push : ∀ us r vs m', st.code place = us ++ .push r :: vs → m.after? printer us = some m' →
    ∃ a, m'.rsp = .address a ∧ a ≤ base - size
  access : ∀ us i vs m' q, st.code place = us ++ i :: vs → m.after? printer us = some m' →
    .mem q ∈ i.operands → m'.InFrame base size q
  call : ∀ us function vs, st.code place = us ++ .call function :: vs → pushDepth us = 0 ∧
    ∀ m', m.after? printer us = some m' →
      ∃ a, m'.rsp = .address a ∧ ((base + 8) % 16 = 8 → a % 16 = 0)
  ret : ∀ us vs m', st.code place = us ++ .ret :: vs → m.after? printer us = some m' →
    m'.rsp = entry.rsp ∧ m'.rbp = entry.rbp

end Stmt

section

variable {place : Text → Operand}

theorem Operator.code_isQuiet (op : Operator) : ∀ i ∈ op.code, i.isQuiet = true := by
  cases op <;> simp [code, Instr.isQuiet, Reg.isFree, Reg.accumulator]

theorem Expr.code_balanced (place : Text → Operand) (e : Expr) : Balanced (e.code place) := by
  induction e with
  | int tok value => exact .of_isQuiet (by simp [code, Instr.isQuiet, Reg.isFree, Reg.accumulator])
  | var id => exact .of_isQuiet (by simp [code, Instr.isQuiet, Reg.isFree, Reg.accumulator])
  | binary tok op left right ihl ihr =>
    have hmov : Balanced [.mov (.reg .rcx) (.reg .accumulator)] := .of_isQuiet (by decide)
    have hright := (ihr.append hmov).bracket
    have hall := ihl.append (hright.append (.of_isQuiet op.code_isQuiet))
    simpa [code] using hall

/-- Every value that is taken from the stack belongs to an operation. -/
theorem Expr.exists_operation {e : Expr} (before : List Instr) {us vs : List Instr}
    (h : e.code place = us ++ .pop .accumulator :: vs) :
    ∃ ws left right, (ws, left, right) ∈ e.operations place before ∧
      before ++ us = ws ++ left.code place ++ (.push .accumulator ::
        (right.code place ++ [.mov (.reg .rcx) (.reg .accumulator)])) := by
  induction e generalizing before us vs with
  | int tok value => simp [code, List.cons_eq_append_iff] at h
  | var id => simp [code, List.cons_eq_append_iff] at h
  | binary tok op left right ihl ihr =>
    rw [code] at h
    rcases split_append h with ⟨ws, hleft, _⟩ | ⟨us₁, rfl, h₁⟩
    · obtain ⟨ws, l, r, hmem, heq⟩ := ihl before hleft
      exact ⟨ws, l, r, by simp [operations, hmem], heq⟩
    rcases split_append h₁ with ⟨ws, hpush, _⟩ | ⟨us₂, rfl, h₂⟩
    · simp [List.cons_eq_append_iff] at hpush
    rcases split_append h₂ with ⟨ws, hright, _⟩ | ⟨us₃, rfl, h₃⟩
    · obtain ⟨ws, l, r, hmem, heq⟩ :=
        ihr (before ++ (left.code place ++ [.push .accumulator])) hright
      refine ⟨ws, l, r, by simp [operations, hmem], ?_⟩
      simpa using heq
    rcases split_append h₃ with ⟨ws, hpop, _⟩ | ⟨us₄, rfl, h₄⟩
    · refine ⟨before, left, right, by simp [operations], ?_⟩
      obtain rfl : us₃ = [.mov (.reg .rcx) (.reg .accumulator)] := by
        simp [List.cons_eq_append_iff] at hpop
        exact hpop.1
      simp
    · have hmem : .pop .accumulator ∈ op.code := by simp [h₄]
      have := op.code_isQuiet _ hmem
      cases this

end

/-- The frame is set up: its base is known, the stack ends with it, and the frame base of the
caller is saved. -/
structure Machine.Framed (m entry : Machine) (base size : Int) : Prop where
  rbp : m.rbp = .address base
  rsp : m.rsp = .address (base - size)
  saved : m.stack base = some entry.rbp

/-- Code that runs from a state with the frame set up and puts nothing on the stack. -/
structure Machine.StaysLevel (printer : Printer) (m entry : Machine) (base size : Int)
    (is : List Instr) : Prop where
  finish : ∀ m', m.after? printer is = some m' → m'.Framed entry base size
  access : ∀ us i vs m' q, is = us ++ i :: vs → m.after? printer us = some m' →
    .mem q ∈ i.operands → m'.InFrame base size q
  call : ∀ us function vs m', is = us ++ .call function :: vs → m.after? printer us = some m' →
    m'.rsp = .address (base - size)
  ret : ∀ us vs m', is = us ++ .ret :: vs → m.after? printer us = some m' →
    m'.rsp = .address (base + 8) ∧ m'.rbp = entry.rbp

variable {printer : Printer} {place : Text → Operand} {base size : Int} {entry m m' : Machine}

theorem Operand.Within.inFrame {o : Operand} (ho : o.Within size) (hb : m.rbp = .address base)
    {q : Mem} (hq : o = .mem q ∨ o.quad = .mem q) : m.InFrame base size q := by
  cases ho with
  | @slot offset low high =>
    have haddr : m.address? q = some (base + offset) := by
      rcases hq with hq | hq <;> cases hq
      · exact address?_slot hb offset
      · exact (m.address?_quad offset).trans (address?_slot hb offset)
    exact ⟨base + offset, haddr, by omega, by omega⟩
  | rel label => rcases hq with hq | hq <;> cases hq

theorem Operand.Within.store?_quad {o : Operand} (ho : o.Within size) (v : Value) :
    m.store? v o.quad = m.store? v o := by
  cases ho with
  | slot low high => simp only [quad, store?, m.address?_quad]
  | rel label => rfl

namespace Machine.Framed

theorem of_keeps (h : m.Framed entry base size) (hsize : 0 ≤ size)
    (hk : m.Keeps (base - size) m') (hsp : m'.rsp = m.rsp) : m'.Framed entry base size :=
  ⟨hk.rbp.trans h.rbp, hsp.trans h.rsp, (hk.stack base (by omega)).trans h.saved⟩

theorem store (h : m.Framed entry base size) {o : Operand} (ho : o.Within size) {v : Value}
    (hs : m.store? v o = some m') : m'.Framed entry base size := by
  cases ho with
  | slot low high =>
    have st : Stored _ v base size m _ := stored_slot h.rbp high v
    obtain rfl := Option.some.inj (st.store.symm.trans hs)
    exact ⟨st.rbp.trans h.rbp, st.rsp.trans h.rsp, (st.above base (Int.le_refl _)).trans h.saved⟩
  | rel label =>
    simp only [store?] at hs
    split at hs
    · cases hs
      exact ⟨h.rbp, h.rsp, h.saved⟩
    · cases hs

theorem after_balanced (h : m.Framed entry base size) (hsize : 0 ≤ size) {is : List Instr}
    (his : Balanced is) (hrun : m.after? printer is = some m') : m'.Framed entry base size := by
  obtain ⟨hk, hsp⟩ := his.keeps h.rsp hrun
  refine h.of_keeps hsize hk ?_
  rw [hsp, his.level, h.rsp, Int.mul_zero, Int.sub_zero]

end Machine.Framed

theorem split_cons {is us vs : List Instr} {i j : Instr} (h : j :: is = us ++ i :: vs) :
    us = [] ∧ j = i ∨ ∃ ws, us = j :: ws ∧ is = ws ++ i :: vs := by
  rcases List.cons_eq_append_iff.mp h with ⟨rfl, h⟩ | ⟨ws, rfl, his⟩
  · exact .inl ⟨rfl, (List.cons.inj h).1⟩
  · exact .inr ⟨ws, rfl, his⟩

namespace Machine.StaysLevel

theorem nil (h : m.Framed entry base size) : m.StaysLevel printer entry base size [] where
  finish := by
    rintro m' ⟨⟩
    exact h
  access := by simp
  call := by simp
  ret := by simp

/-- A quiet instruction before the code. -/
theorem quiet_cons (hsize : 0 ≤ size) (hm : m.Framed entry base size) {i : Instr}
    (hi : i.isQuiet = true) (hops : ∀ q, .mem q ∉ i.operands) {is : List Instr}
    (h : ∀ {m₁ : Machine}, m₁.Framed entry base size → m₁.StaysLevel printer entry base size is) :
    m.StaysLevel printer entry base size (i :: is) := by
  have hnext {m₁ : Machine} (hstep : m.step printer i = some (.next m₁)) :
      m₁.StaysLevel printer entry base size is := by
    obtain ⟨hk, hsp⟩ := step_isQuiet hi hstep (base - size)
    exact h (hm.of_keeps hsize hk hsp)
  refine ⟨?_, ?_, ?_, ?_⟩
  · intro m' hrun
    obtain ⟨m₁, hstep, hrun⟩ := after?_cons_eq_some.mp hrun
    exact (hnext hstep).finish m' hrun
  · intro us j vs m' q hsplit hrun hq
    rcases split_cons hsplit with ⟨_, rfl⟩ | ⟨ws, rfl, his⟩
    · exact absurd hq (hops q)
    · obtain ⟨m₁, hstep, hrun⟩ := after?_cons_eq_some.mp hrun
      exact (hnext hstep).access ws j vs m' q his hrun hq
  · intro us function vs m' hsplit hrun
    rcases split_cons hsplit with ⟨_, rfl⟩ | ⟨ws, rfl, his⟩
    · cases hi
    · obtain ⟨m₁, hstep, hrun⟩ := after?_cons_eq_some.mp hrun
      exact (hnext hstep).call ws function vs m' his hrun
  · intro us vs m' hsplit hrun
    rcases split_cons hsplit with ⟨_, rfl⟩ | ⟨ws, rfl, his⟩
    · cases hi
    · obtain ⟨m₁, hstep, hrun⟩ := after?_cons_eq_some.mp hrun
      exact (hnext hstep).ret ws vs m' his hrun

/-- Writing a variable. -/
theorem store (hm : m.Framed entry base size) {o dst src : Operand} (ho : o.Within size)
    (hdst : dst = o ∨ dst = o.quad) (hsrc : src.isMemory = false) :
    m.StaysLevel printer entry base size [.mov dst src] where
  finish := by
    intro m' hrun
    rw [after?_singleton_eq_some, step] at hrun
    split at hrun
    · simp only [Option.map_eq_some_iff, Option.bind_eq_some_iff] at hrun
      obtain ⟨_, ⟨v, _, hstore⟩, ⟨⟩⟩ := hrun
      rcases hdst with rfl | rfl
      · exact hm.store ho hstore
      · exact hm.store ho ((ho.store?_quad v).symm.trans hstore)
    · cases hrun
  access := by
    intro us i vs m' q hsplit hrun hq
    rcases split_cons hsplit with ⟨rfl, rfl⟩ | ⟨ws, _, hnil⟩
    · cases hrun
      refine ho.inFrame hm.rbp ?_
      simp only [Instr.operands, List.mem_cons, List.not_mem_nil, or_false] at hq
      rcases hq with hq | hq
      · rcases hdst with rfl | rfl
        · exact .inl hq.symm
        · exact .inr hq.symm
      · rw [← hq] at hsrc
        cases hsrc
    · simp at hnil
  call := by simp [List.cons_eq_append_iff]
  ret := by simp [List.cons_eq_append_iff]

theorem print (hsize : 0 ≤ size) (hm : m.Framed entry base size) :
    m.StaysLevel printer entry base size [.call printFunction] where
  finish := by
    intro m' hrun
    rw [after?_singleton_eq_some, step, if_pos rfl] at hrun
    obtain ⟨_, hprint, ⟨⟩⟩ := Option.map_eq_some_iff.mp hrun
    unfold print? at hprint
    split at hprint
    · rename_i a _ _ ha
      split at hprint
      · cases hprint
        obtain rfl : base - size = a := by
          rw [hm.rsp] at ha
          exact Value.address.inj ha
        exact ⟨hm.rbp, hm.rsp, (if_neg (by omega)).trans hm.saved⟩
      · cases hprint
    · cases hprint
  access := by
    intro us i vs m' q hsplit _ hq
    rcases split_cons hsplit with ⟨_, rfl⟩ | ⟨ws, _, hnil⟩
    · cases hq
    · simp at hnil
  call := by
    intro us function vs m' hsplit hrun
    rcases split_cons hsplit with ⟨rfl, _⟩ | ⟨ws, _, hnil⟩
    · cases hrun
      exact hm.rsp
    · simp at hnil
  ret := by simp [List.cons_eq_append_iff]

/-- The way back to the caller. -/
theorem leave (hm : m.Framed entry base size) : m.StaysLevel printer entry base size epilogue := by
  have hepilogue : epilogue =
      [.mov (.reg .rsp) (.reg .frameBase), .pop .frameBase] ++ [.ret] := rfl
  have hpop {m₂ : Machine}
      (hrun : m.after? printer [.mov (.reg .rsp) (.reg .frameBase), .pop .frameBase] = some m₂) :
      m₂.rsp = .address (base + 8) ∧ m₂.rbp = entry.rbp := by
    have hmov : m.step printer (.mov (.reg .rsp) (.reg .frameBase)) =
        some (.next { m with rsp := .address base }) := by
      simp [step, movable, Machine.load?, store?, set?, get?, Reg.frameBase, hm.rbp]
    obtain ⟨_, hstep, hrun⟩ := after?_cons_eq_some.mp hrun
    cases hmov.symm.trans hstep
    rw [after?_singleton_eq_some] at hrun
    simp [step, pop?, hm.saved, set?, Reg.frameBase] at hrun
    subst hrun
    exact ⟨rfl, rfl⟩
  refine ⟨?_, ?_, ?_, ?_⟩
  · intro m' hrun
    rw [hepilogue] at hrun
    obtain ⟨m₁, _, hrun⟩ := after?_append_eq_some.mp hrun
    rw [after?_singleton_eq_some, step, leave?] at hrun
    split at hrun <;> cases hrun
  · intro us i vs m' q hsplit _ hq
    have hi : i ∈ epilogue := by simp [hsplit]
    simp only [epilogue, List.mem_cons, List.not_mem_nil, or_false] at hi
    rcases hi with rfl | rfl | rfl <;> simp [Instr.operands] at hq
  · intro us function vs m' hsplit
    have hi : .call function ∈ epilogue := by simp [hsplit]
    simp [epilogue] at hi
  · intro us vs m' hsplit hrun
    obtain ⟨rfl, _⟩ : us = [.mov (.reg .rsp) (.reg .frameBase), .pop .frameBase] ∧ vs = [] := by
      simpa [epilogue, List.cons_eq_append_iff] using hsplit
    exact hpop hrun

theorem closing (hsize : 0 ≤ size) (hm : m.Framed entry base size) :
    m.StaysLevel printer entry base size closing :=
  quiet_cons hsize hm (by decide) (by simp [clearResult, Instr.operands]) leave

theorem printCode (hsize : 0 ≤ size) (hm : m.Framed entry base size) :
    m.StaysLevel printer entry base size printCode := by
  refine quiet_cons hsize hm (by decide) (by simp [Instr.operands]) fun hm => ?_
  refine quiet_cons hsize hm (by decide) (by simp [Instr.operands]) fun hm => ?_
  exact quiet_cons hsize hm (by decide) (by simp [clearResult, Instr.operands]) (print hsize)

end Machine.StaysLevel

namespace Stmt

variable {st : Stmt}

theorem valueCode_balanced (place : Text → Operand) (st : Stmt) :
    Balanced (st.valueCode place) := by
  unfold valueCode
  cases st.value? with
  | none => exact .of_isQuiet (by simp)
  | some e => exact e.code_balanced place

/-- Nothing is put on the stack once the value is computed. -/
theorem useCode_pushes {i : Instr} (h : i ∈ st.useCode place) :
    i.pushes = 0 ∧ ∀ r, i ≠ .push r := by
  have hstore (o : Operand) (i : Instr) (hi : i ∈ [.mov o (.reg .accumulator)]) :
      i.pushes = 0 ∧ ∀ r, i ≠ .push r := by
    rw [List.mem_singleton.mp hi]
    exact ⟨rfl, fun _ h => by cases h⟩
  have hleave (i : Instr) (hi : i ∈ closing) : i.pushes = 0 ∧ ∀ r, i ≠ .push r := by
    simp only [closing, epilogue, List.mem_cons, List.not_mem_nil, or_false] at hi
    rcases hi with rfl | rfl | rfl | rfl <;> exact ⟨rfl, fun _ h => by cases h⟩
  cases st with
  | declare tok storage name init =>
    cases init with
    | none =>
      cases storage with
      | globalVar => cases h
      | localVar =>
        rw [List.mem_singleton.mp h]
        exact ⟨rfl, fun _ h => by cases h⟩
    | some init => exact hstore _ i h
  | assign tok target value => exact hstore _ i h
  | print tok value =>
    simp only [useCode, printCode, List.mem_cons, List.not_mem_nil, or_false] at h
    rcases h with rfl | rfl | rfl | rfl <;> exact ⟨rfl, fun _ h => by cases h⟩
  | ret tok value =>
    cases value with
    | none => exact hleave i h
    | some value => exact hleave i (List.mem_cons_of_mem _ h)

theorem useCode_level (hsize : 0 ≤ size) (within : ∀ id ∈ st.idents, (place id.name).Within size)
    (hm : m.Framed entry base size) : m.StaysLevel printer entry base size (st.useCode place) := by
  cases st with
  | declare tok storage name init =>
    have ho := within name (by simp [idents])
    cases init with
    | none =>
      cases storage with
      | globalVar => exact .nil hm
      | localVar => exact .store hm ho (.inr rfl) rfl
    | some init => exact .store hm ho (.inl rfl) rfl
  | assign tok target value =>
    exact .store hm (within target (by simp [idents])) (.inl rfl) rfl
  | print tok value => exact .printCode hsize hm
  | ret tok value =>
    cases value with
    | none => exact .closing hsize hm
    | some value => exact .leave hm

theorem mem_idents_of_value? {e : Expr} (h : st.value? = some e) {id : Ident}
    (hid : id ∈ e.idents) : id ∈ st.idents := by
  cases st <;> simp_all [value?, idents]

/-- An instruction of a statement belongs to the computation of its value or to its use. -/
theorem split_code {us vs : List Instr} {i : Instr} (h : st.code place = us ++ i :: vs) :
    (∃ ws, st.valueCode place = us ++ i :: ws) ∨
      ∃ ws, us = st.valueCode place ++ ws ∧ st.useCode place = ws ++ i :: vs := by
  rw [code_eq] at h
  rcases split_append h with ⟨ws, hvalue, _⟩ | huse
  · exact .inl ⟨ws, hvalue⟩
  · exact .inr huse

theorem pushDepth_after_value {ws vs : List Instr} (h : st.useCode place = ws ++ vs) :
    pushDepth (st.valueCode place ++ ws) = 0 := by
  have hws : ∀ i ∈ ws, i.pushes = 0 := by
    intro i hi
    have hmem : i ∈ st.useCode place := by simp [h, hi]
    exact (useCode_pushes hmem).1
  rw [pushDepth_append, (st.valueCode_balanced place).level, pushDepth_eq_zero hws, Int.add_zero]

section

variable (hm : m.Framed entry base size)

include hm

/-- Inside the value the stack pointer follows the depth. -/
theorem keeps_inside_value {us vs : List Instr} (hus : st.valueCode place = us ++ vs)
    (hrun : m.after? printer us = some m') :
    m.Keeps (base - size) m' ∧ m'.rsp = .address (base - size - 8 * pushDepth us) := by
  have hclimbs := (st.valueCode_balanced place).toClimbs
  rw [hus] at hclimbs
  exact hclimbs.left.keeps hm.rsp hrun

/-- The operation that pushed a value is the one that pops it. -/
theorem exists_popped {us vs : List Instr} (h : st.code place = us ++ .pop .accumulator :: vs) :
    ∃ before left right, (before, left, right) ∈ st.operations place ∧
      us = before ++ left.code place ++ (.push .accumulator ::
        (right.code place ++ [.mov (.reg .rcx) (.reg .accumulator)])) ∧
      ∀ m', m.after? printer us = some m' →
        ∃ m₁, m.after? printer (before ++ left.code place) = some m₁ ∧
          m'.pop?.map Prod.fst = some m₁.rax := by
  rcases split_code h with ⟨ws, hws⟩ | ⟨ws, _, huse⟩
  · cases hv : st.value? with
    | none => simp [valueCode, hv] at hws
    | some e =>
      have hcode : st.valueCode place = e.code place := by simp [valueCode, hv]
      obtain ⟨before, left, right, hmem, hus⟩ := Expr.exists_operation [] (hcode.symm.trans hws)
      rw [List.nil_append] at hus
      refine ⟨before, left, right, by simpa [operations, hv] using hmem, hus, ?_⟩
      intro m' hrun
      rw [hus] at hrun hws
      obtain ⟨m₁, hleft, hright⟩ := after?_append_eq_some.mp hrun
      rw [List.append_assoc] at hws
      obtain ⟨_, hsp⟩ := keeps_inside_value hm hws hleft
      have hbalanced : Balanced (right.code place ++ [.mov (.reg .rcx) (.reg .accumulator)]) :=
        (right.code_balanced place).append (.of_isQuiet (by decide))
      exact ⟨m₁, hleft, hbalanced.popped hsp hright⟩
  · have hpop : .pop .accumulator ∈ st.useCode place := by simp [huse]
    have := (useCode_pushes hpop).1
    simp at this

variable (hsize : 0 ≤ size) (within : ∀ id ∈ st.idents, (place id.name).Within size)

include hsize within

/-- After the value the frame is as it was. -/
theorem level_after_value {ws : List Instr}
    (hrun : m.after? printer (st.valueCode place ++ ws) = some m') :
    ∃ m₁ : Machine, m₁.after? printer ws = some m' ∧
      m₁.StaysLevel printer entry base size (st.useCode place) := by
  obtain ⟨m₁, hvalue, hrun⟩ := after?_append_eq_some.mp hrun
  have hm₁ := hm.after_balanced hsize (st.valueCode_balanced place) hvalue
  exact ⟨m₁, hrun, useCode_level hsize within hm₁⟩

theorem inFrame_of_mem_operands {us vs : List Instr} {i : Instr} {q : Mem}
    (h : st.code place = us ++ i :: vs) (hrun : m.after? printer us = some m')
    (hq : .mem q ∈ i.operands) : m'.InFrame base size q := by
  rcases split_code h with ⟨ws, hws⟩ | ⟨ws, rfl, huse⟩
  · cases hv : st.value? with
    | none => simp [valueCode, hv] at hws
    | some e =>
      have hi : i ∈ e.code place := by
        have hmem : i ∈ st.valueCode place := by simp [hws]
        simpa [valueCode, hv] using hmem
      obtain ⟨id, hid, hplace⟩ := Expr.mem_operands hi hq rfl
      have hrbp := (keeps_inside_value hm hws hrun).1.rbp.trans hm.rbp
      exact (within id (mem_idents_of_value? hv hid)).inFrame hrbp (.inl hplace)
  · obtain ⟨m₁, hrun, hlevel⟩ := level_after_value hm hsize within hrun
    exact hlevel.access ws i vs m' q huse hrun hq

theorem framed_after_code (hrun : m.after? printer (st.code place) = some m') :
    m'.Framed entry base size := by
  rw [code_eq] at hrun
  obtain ⟨m₁, hrun, hlevel⟩ := level_after_value hm hsize within hrun
  exact hlevel.finish m' hrun

theorem stackSafe (hentry : entry.rsp = .address (base + 8)) (halign : size % 16 = 0) :
    st.StackSafe printer place entry base size m where
  start := ⟨hm.rbp, hm.rsp⟩
  finish := by
    intro m' hrun
    have hm' := framed_after_code hm hsize within hrun
    exact ⟨hm'.rbp, hm'.rsp⟩
  nonneg := by
    intro us vs hsplit
    rw [code_eq] at hsplit
    rcases List.append_eq_append_iff.mp hsplit with ⟨ws, rfl, huse⟩ | ⟨ws, hus, _⟩
    · exact Int.le_of_eq (pushDepth_after_value huse).symm
    · exact (st.valueCode_balanced place).nonneg us ws hus
  pop := fun us vs hsplit => exists_popped hm hsplit
  push := by
    intro us r vs m' hsplit hrun
    rcases split_code hsplit with ⟨ws, hws⟩ | ⟨ws, _, huse⟩
    · have hdepth := (st.valueCode_balanced place).nonneg us _ hws
      exact ⟨_, (keeps_inside_value hm hws hrun).2, by omega⟩
    · have hpush : .push r ∈ st.useCode place := by simp [huse]
      exact absurd rfl ((useCode_pushes hpush).2 r)
  access := fun us i vs m' q hsplit hrun hq =>
    inFrame_of_mem_operands hm hsize within hsplit hrun hq
  call := by
    intro us function vs hsplit
    rcases split_code hsplit with ⟨ws, hws⟩ | ⟨ws, rfl, huse⟩
    · have hkind := (st.valueCode_balanced place).kinds (.call function) (by simp [hws])
      simp [Instr.isQuiet] at hkind
    · refine ⟨pushDepth_after_value huse, fun m' hrun => ?_⟩
      obtain ⟨m₁, hrun, hlevel⟩ := level_after_value hm hsize within hrun
      exact ⟨_, hlevel.call ws function vs m' huse hrun, by omega⟩
  ret := by
    intro us vs m' hsplit hrun
    rcases split_code hsplit with ⟨ws, hws⟩ | ⟨ws, rfl, huse⟩
    · have hkind := (st.valueCode_balanced place).kinds .ret (by simp [hws])
      simp [Instr.isQuiet] at hkind
    · obtain ⟨m₁, hrun, hlevel⟩ := level_after_value hm hsize within hrun
      rw [hentry]
      exact hlevel.ret ws vs m' huse hrun

end

/-- Between statements the frame is always set up. -/
theorem framed_after {ss : List Stmt} (hsize : 0 ≤ size)
    (within : ∀ st ∈ ss, ∀ id ∈ st.idents, (place id.name).Within size)
    (hm : m.Framed entry base size)
    (hrun : m.after? printer (ss.flatMap (Stmt.code place)) = some m') :
    m'.Framed entry base size := by
  induction ss generalizing m with
  | nil =>
    cases hrun
    exact hm
  | cons st ss ih =>
    rw [List.forall_mem_cons] at within
    rw [List.flatMap_cons] at hrun
    obtain ⟨m₁, hst, hrun⟩ := after?_append_eq_some.mp hrun
    exact ih within.2 (framed_after_code hm hsize within.1 hst) hrun

end Stmt

/-- The stack discipline of compiled code. The lines of a program are those of its statements, in
order, between a prologue and a closing. Whenever the code of a statement is reached the stack ends
with the frame, and it does so again when the next one is reached; what happens in between is told
by `Stmt.StackSafe`. The last return is like all others. -/
theorem TokenStream.stackSafe_of_generate {tokens : TokenStream} {p : Program}
    (hp : tokens.parse.result = .ok p) {g g' : Generator} {text : Text}
    (hg : g.generate p = (.ok text, g')) :
    ∃ (ss : List Stmt) (f : Frame), p.stmts = ss.map Stmt.node ∧
      p.node.layoutFrame g.table = (.ok f, g'.table) ∧
      g'.lines = g.lines ++ (prologue f ++
        (ss.flatMap (Stmt.code (f.place g'.table)) ++ closing)).map Instr.text ∧
      ∀ (printer : Printer) (m : Machine) (base : Int), m.rsp = .address (base + 8) →
        (∀ before st after m₀, ss = before ++ st :: after →
          m.after? printer (prologue f ++ before.flatMap (Stmt.code (f.place g'.table))) =
            some m₀ →
          st.StackSafe printer (f.place g'.table) m base f.size m₀) ∧
        ∀ us vs m', closing = us ++ .ret :: vs →
          m.after? printer (prologue f ++ ss.flatMap (Stmt.code (f.place g'.table)) ++ us) =
            some m' →
          m'.rsp = m.rsp ∧ m'.rbp = m.rbp := by
  obtain ⟨ss, hss, _⟩ := TokenStream.exists_stmts_of_parse hp
  obtain ⟨s, hs, htable, hlines, _⟩ := Generator.generate_stmts hss hg
  have hframe : p.node.layoutFrame g.table = (.ok s.frame, s.table) := by
    rw [Program.node, hss]
    exact Node.layoutFrame_of_layout hs
  rw [htable]
  refine ⟨ss, s.frame, hss, hframe, hlines, ?_⟩
  intro printer m base hsp
  have hext : Scopes.Extends (fun _ => True) ⟨g.table, {}⟩ s :=
    (Node.program .zero (ss.map Stmt.node)).layout_extends
      (declares_of_idents fun _ _ _ _ => trivial) hs
  have hbuilder : s.builder.WellFormed := Builder.WellFormed.extends ⟨by simp, by simp⟩ hext
  have within : ∀ st ∈ ss, ∀ id ∈ st.idents, (s.place id.name).Within s.frame.size := by
    intro st hst id hid
    obtain ⟨s₁, s₂, hl, hgrow⟩ := exists_layout_of_mem hs hst
    exact Scopes.place_within hbuilder (hgrow.knows (Stmt.knows_of_layout hl hid))
  have hsize : (0 : Int) ≤ s.frame.size := by omega
  have framed {before : List Stmt} {m₀ : Machine} (hsub : ∀ st ∈ before, st ∈ ss)
      (hrun : m.after? printer (prologue s.frame ++ before.flatMap (Stmt.code s.place)) =
        some m₀) : m₀.Framed m base s.frame.size := by
    obtain ⟨m₁, hprologue, hrun⟩ := after?_append_eq_some.mp hrun
    obtain ⟨m₂, hrun₂, hbp, hsp₂, hsaved, _⟩ := prologue_after? s.frame hsp
    cases hrun₂.symm.trans hprologue
    rw [Int.add_sub_cancel] at hbp hsp₂ hsaved
    exact Stmt.framed_after hsize (fun st hst => within st (hsub st hst)) ⟨hbp, hsp₂, hsaved⟩ hrun
  constructor
  · intro before st after m₀ hsplit hrun
    refine Stmt.stackSafe (framed ?_ hrun) hsize (within st (by simp [hsplit])) hsp ?_
    · intro st' hst'
      simp [hsplit, hst']
    · simp only [Frame.size]
      omega
  · intro us vs m' hsplit hrun
    obtain ⟨m₁, hbody, hrun⟩ := after?_append_eq_some.mp hrun
    rw [hsp]
    exact (StaysLevel.closing hsize (framed (fun _ h => h) hbody)).ret us vs m' hsplit hrun

/-- In `local int x = 2; print x + 1;` the second statement is reached, below a frame of one
local. -/
theorem TokenStream.stackSafe_of_generate_sum :
    let local₁ : Token := ⟨.keyword .localWord, "local", 1⟩
    let two : Token := ⟨.intLiteral, "2", 1⟩
    let print₂ : Token := ⟨.keyword .printWord, "print", 2⟩
    let plus : Token := ⟨.char '+', "+", 2⟩
    let one : Token := ⟨.intLiteral, "1", 2⟩
    let x₁ : Ident := ⟨⟨.identifier, "x", 1⟩, "x"⟩
    let x₂ : Ident := ⟨⟨.identifier, "x", 2⟩, "x"⟩
    let first : Stmt := .declare local₁ .localVar x₁ (some (.int two 2))
    let second : Stmt := .print print₂ (.binary plus .add (.var x₂) (.int one 1))
    let f : Frame := ⟨[⟨"x", -8, 1⟩], true⟩
    let m : Machine := ⟨.num 0, .num 0, .num 0, .num 0, .num 0, .num 0, .address 8,
      fun _ => some .caller, fun _ => none, []⟩
    ∀ printer : Printer, ∃ m₀,
      m.after? printer (prologue f ++ first.code (f.place {})) = some m₀ ∧
        second.StackSafe printer (f.place {}) m 0 f.size m₀ := by
  intro local₁ two print₂ plus one x₁ x₂ first second f m printer
  let semicolon : Token := ⟨.char ';', ";", 1⟩
  let p : Program := ⟨local₁, [first.node, second.node]⟩
  let g : Generator := (({} : Generator).generate p).2
  have hp : (TokenStream.parse ⟨[local₁, ⟨.keyword .intWord, "int", 1⟩, x₁.tok,
      ⟨.char '=', "=", 1⟩, two, semicolon, print₂, x₂.tok, plus, one, semicolon],
      .endOfFile 2⟩).result = .ok p := rfl
  have hg : ({} : Generator).generate p = (.ok g.output, g) := rfl
  obtain ⟨ss, f', hss, hframe, _, h⟩ := stackSafe_of_generate hp hg
  have hstmts : [first, second].map Stmt.node = ss.map Stmt.node := hss
  obtain rfl := (List.map_inj_right Stmt.node_inj).mp hstmts
  have hlayout : p.node.layoutFrame {} = (.ok f, {}) := rfl
  obtain ⟨hf, ht⟩ := Prod.mk.inj (hframe.symm.trans hlayout)
  rw [Except.ok.inj hf, ht] at h
  have hreach : (m.after? printer (prologue f ++ first.code (f.place {}))).isSome = true := by
    simp only [f]
    rfl
  obtain ⟨m₀, hm₀⟩ := Option.isSome_iff_exists.mp hreach
  exact ⟨m₀, hm₀, (h printer m 0 rfl).1 [first] second [] m₀ rfl hm₀⟩

end IntLang
