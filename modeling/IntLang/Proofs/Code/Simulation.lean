import IntLang.Proofs.Code.Straight
import IntLang.Proofs.Machine.Memory

/-! The machine does what the program means: expression by expression, then statement by
statement. -/
namespace IntLang

/-- The code leaves a value in the accumulator and the stack as it was, above the stack pointer.
Where there is no value it traps. -/
def Machine.Evaluates (printer : Printer) (code : List Instr) (m : Machine) (low : Int) :
    Option Int64 → Prop
  | some v => ∃ m', Runs printer code m m' ∧ m.Keeps low m' ∧ m'.rsp = m.rsp ∧
      m'.printed = m.printed ∧ m'.rax = .num v
  | none => ∃ m', Stops printer code m .trap m' ∧ m'.printed = m.printed

open Machine

variable {printer : Printer} {place : Text → Operand} {σ : Store} {base size low : Int}
  {m m' : Machine}

/-- The sign of a number in the upper half makes it a number of 128 bits. -/
theorem dividend_eq (a : Int64) : (if a < 0 then (-1 : Int64) else 0).toInt * 18446744073709551616 +
    a.toInt % 18446744073709551616 = a.toInt := by
  have hlow := a.le_toInt
  have hhigh := a.toInt_lt
  split
  · rename_i h
    have : a.toInt < 0 := Int64.lt_iff_toInt_lt.mp h
    rw [show (-1 : Int64).toInt = -1 from rfl]
    omega
  · rename_i h
    have : ¬ a.toInt < 0 := fun h' => h (Int64.lt_iff_toInt_lt.mpr h')
    rw [show (0 : Int64).toInt = 0 from rfl]
    omega

theorem arith_evaluates {i : Instr} {op : Int64 → Int64 → Int64} {a b : Int64}
    (hi : m.step printer i = (m.arith? op .rax .rcx).map .next) (ha : m.rax = .num a)
    (hb : m.rcx = .num b) : Evaluates printer [i] m low (some (op a b)) := by
  refine ⟨{ m with rax := .num (op a b) }, .single ?_, ⟨rfl, rfl, fun _ _ => rfl⟩, rfl, rfl,
    rfl⟩
  simp only [hi, arith?, get?, ha, hb, set?, Option.map_some]

theorem Operator.code_evaluates (op : Operator) {a b : Int64} (ha : m.rax = .num a)
    (hb : m.rcx = .num b) : Evaluates printer op.code m low (op.apply a b) := by
  cases op with
  | add =>
    rw [apply, Int64.ofInt_add, Int64.ofInt_toInt, Int64.ofInt_toInt]
    exact arith_evaluates rfl ha hb
  | sub =>
    rw [apply, Int64.ofInt_sub, Int64.ofInt_toInt, Int64.ofInt_toInt]
    exact arith_evaluates rfl ha hb
  | mul =>
    rw [apply, Int64.ofInt_mul, Int64.ofInt_toInt, Int64.ofInt_toInt]
    exact arith_evaluates rfl ha hb
  | div =>
    let m₁ := { m with rdx := .num (if a < 0 then -1 else 0) }
    have hcqo : m.step printer .cqo = some (.next m₁) := by simp only [step, ha, m₁]
    rw [apply]
    split
    · rename_i h
      refine ⟨{ m with
        rax := .num (.ofInt (a.toInt.tdiv b.toInt)), rdx := .num (.ofInt (a.toInt.tmod b.toInt)) },
        .cons hcqo (.single ?_), ⟨rfl, rfl, fun _ _ => rfl⟩, rfl, rfl,
    rfl⟩
      simp only [step, divide?, m₁, ha, get?, hb, dividend_eq, if_pos h]
    · rename_i h
      refine ⟨m₁, (Runs.single hcqo).stops (.single ?_), rfl⟩
      simp only [step, divide?, m₁, ha, get?, hb, dividend_eq, if_neg h]

theorem Machine.Evaluates.of_runs {is js : List Instr} {v : Option Int64}
    (h : Runs printer is m m') (hk : m.Keeps low m') (hsp : m'.rsp = m.rsp)
    (hout : m'.printed = m.printed) (he : Evaluates printer js m' low v) :
    Evaluates printer (is ++ js) m low v := by
  cases v with
  | none =>
    obtain ⟨m₁, hs, hp⟩ := he
    exact ⟨m₁, h.stops hs, hp.trans hout⟩
  | some v =>
    obtain ⟨m₁, hr, hk₁, hsp₁, hout₁, hax⟩ := he
    exact ⟨m₁, h.append hr, hk.trans hk₁, hsp₁.trans hsp, hout₁.trans hout, hax⟩

theorem push_left {a : Int64} (hsp : m.rsp = .address low) (ha : m.rax = .num a) :
    ∃ m', Runs printer [.push .accumulator] m m' ∧ m.Keeps low m' ∧
      m'.rsp = .address (low - 8) ∧ m'.printed = m.printed ∧
      m'.stack (low - 8) = some (.num a) := by
  refine ⟨{ m with rsp := .address (low - 8) }.write (low - 8) (.num a), .single ?_,
    ⟨rfl, rfl, ?_⟩, rfl, rfl, stack_write_self _ _ _⟩
  · simp [step, get?, push?, Reg.accumulator, ha, hsp]
  · intro b hb
    exact stack_write_apart (by omega) _ _

theorem pop_left {a b : Int64} (hsp : m.rsp = .address (low - 8)) (hb : m.rax = .num b)
    (ha : m.stack (low - 8) = some (.num a)) :
    ∃ m', Runs printer [.mov (.reg .rcx) (.reg .accumulator), .pop .accumulator] m m' ∧
      m.Keeps low m' ∧ m'.rsp = .address low ∧ m'.printed = m.printed ∧ m'.rax = .num a ∧
      m'.rcx = .num b := by
  have hmov : m.step printer (.mov (.reg .rcx) (.reg .accumulator)) =
      some (.next { m with rcx := .num b }) := by
    simp [step, movable, Machine.load?, store?, set?, get?, Reg.accumulator, hb]
  refine ⟨{ m with rcx := .num b, rax := .num a, rsp := .address low }, .cons hmov (.single ?_),
    ⟨rfl, rfl, fun _ _ => rfl⟩, rfl, rfl, rfl, rfl⟩
  simp [step, pop?, hsp, ha, set?, Reg.accumulator]

/-- The right operand is computed below the value of the left one, so that this is still there
when it is taken from the stack. -/
theorem Expr.code_evaluates (e : Expr) (hb : m.rbp = .address base) (hsp : m.rsp = .address low)
    (hl : low ≤ base - size) (hv : ∀ id ∈ e.idents, (place id.name).Within size ∧
      m.load? (place id.name) = some (.num (σ id.name))) :
    Evaluates printer (e.code place) m low (e.eval σ) := by
  induction e generalizing m low with
  | int tok value =>
    refine ⟨{ m with rax := .num value }, .single ?_, ⟨rfl, rfl, fun _ _ => rfl⟩, rfl, rfl,
    rfl⟩
    simp [step, movable, Machine.load?, store?, set?, Reg.accumulator]
  | var id =>
    obtain ⟨_, hload⟩ := hv id (by simp [idents])
    refine ⟨{ m with rax := .num (σ id.name) }, .single ?_, ⟨rfl, rfl, fun _ _ => rfl⟩, rfl, rfl,
      rfl⟩
    simp [step, movable, hload, store?, set?, Reg.accumulator]
  | binary tok op left right ihl ihr =>
    simp only [idents, List.mem_append] at hv
    have hleft := ihl hb hsp hl fun id hid => hv id (.inl hid)
    rw [code, eval]
    cases hx : left.eval σ with
    | none =>
      rw [hx] at hleft
      obtain ⟨m₁, hs, hp⟩ := hleft
      exact ⟨m₁, hs.append _, hp⟩
    | some a =>
      rw [hx] at hleft
      obtain ⟨m₁, hrun₁, hkeep₁, hsp₁, hout₁, hax₁⟩ := hleft
      obtain ⟨m₂, hrun₂, hkeep₂, hsp₂, hout₂, htop₂⟩ := push_left (hsp₁.trans hsp) hax₁
      have hkeep := hkeep₁.trans hkeep₂
      have hout := hout₂.trans hout₁
      have hright := ihr (hkeep.rbp.trans hb) hsp₂ (by omega) fun id hid => by
        obtain ⟨hw, hload⟩ := hv id (.inr hid)
        exact ⟨hw, (hkeep.load? hb hl hw).trans hload⟩
      cases hy : right.eval σ with
      | none =>
        rw [hy] at hright
        obtain ⟨m₃, hs, hp⟩ := hright
        exact ⟨m₃, hrun₁.stops (hrun₂.stops (hs.append _)), hp.trans hout⟩
      | some b =>
        rw [hy] at hright
        obtain ⟨m₃, hrun₃, hkeep₃, hsp₃, hout₃, hax₃⟩ := hright
        have htop₃ := (hkeep₃.stack _ (by omega)).trans htop₂
        obtain ⟨m₄, hrun₄, hkeep₄, hsp₄, hout₄, hax₄, hcx₄⟩ :=
          pop_left (hsp₃.trans hsp₂) hax₃ htop₃
        have hrun := hrun₁.append (hrun₂.append (hrun₃.append hrun₄))
        simp only [← List.append_assoc] at hrun ⊢
        refine .of_runs hrun ?_ (hsp₄.trans hsp.symm) (hout₄.trans (hout₃.trans hout))
          (op.code_evaluates hax₄ hcx₄)
        exact hkeep.trans ((hkeep₃.mono (by omega)).trans hkeep₄)

/-- The variables with these names lie inside the frame or in cells, no two in one place. -/
structure Placing (place : Text → Operand) (size : Int) (named : Text → Prop) : Prop where
  within : ∀ n, named n → (place n).Within size
  apart : ∀ n k, named n → named k → n ≠ k → (place n).Apart (place k)

/-- The machine stands between two statements: every variable declared so far has its value in its
place, the cell of every other one is still zero, and the way back to the caller is untouched. -/
structure Machine.Holds (place : Text → Operand) (named : Text → Prop) (base size : Int)
    (s : Scopes) (σ : Store) (m : Machine) : Prop where
  rbp : m.rbp = .address base
  rsp : m.rsp = .address (base - size)
  saved : ∃ v, m.stack base = some v
  caller : m.stack (base + 8) = some .caller
  known : ∀ n, s.Knows n → m.load? (place n) = some (.num (σ n))
  fresh : ∀ n label, named n → ¬ s.Knows n → place n = .rel label → m.data label = some (.num 0)

variable {named : Text → Prop} {s s' : Scopes}

theorem Machine.Holds.of_keeps (hp : Placing place size named) (hs : ∀ n, s.Knows n → named n)
    (hsize : 0 ≤ size) (h : m.Holds place named base size s σ) (hk : m.Keeps (base - size) m')
    (hsp : m'.rsp = m.rsp) : m'.Holds place named base size s σ where
  rbp := hk.rbp.trans h.rbp
  rsp := hsp.trans h.rsp
  saved := by
    rw [hk.stack base (by omega)]
    exact h.saved
  caller := (hk.stack _ (by omega)).trans h.caller
  known := fun n hn =>
    (hk.load? h.rbp (Int.le_refl _) (hp.within n (hs n hn))).trans (h.known n hn)
  fresh := fun n label hn hf hr => by
    rw [hk.data]
    exact h.fresh n label hn hf hr

/-- Writing a variable, an old one or the one that a statement has just declared. -/
theorem Machine.Holds.store (hp : Placing place size named) (hs : ∀ n, s.Knows n → named n)
    (h : m.Holds place named base size s σ) {name : Text} (hn : named name)
    (hs' : ∀ n, s'.Knows n ↔ s.Knows n ∨ n = name) (v : Int64) :
    ∃ m', m.store? (.num v) (place name) = some m' ∧
      m'.Holds place named base size s' (σ.set name v) ∧ m'.printed = m.printed := by
  have hcell : ∀ label, place name = .rel label → ∃ old, m.data label = some old := by
    intro label hl
    by_cases hk : s.Knows name
    · have := h.known name hk
      rw [hl] at this
      exact ⟨_, this⟩
    · exact ⟨_, h.fresh name label hn hk hl⟩
  obtain ⟨m', st⟩ := exists_stored h.rbp (hp.within name hn) hcell (.num v)
  have hother {n : Text} (hnn : named n) (hne : n ≠ name) :
      m'.load? (place n) = m.load? (place n) :=
    st.others _ (hp.within n hnn) (hp.apart name n hn hnn hne.symm)
  refine ⟨m', st.store, ?_, st.printed⟩
  refine ⟨st.rbp.trans h.rbp, st.rsp.trans h.rsp, ?_, ?_, ?_, ?_⟩
  · rw [st.above base (Int.le_refl _)]
    exact h.saved
  · exact (st.above _ (by omega)).trans h.caller
  · intro n hk
    by_cases he : n = name
    · rw [he, Store.set, if_pos rfl]
      exact st.load
    · have hkn := ((hs' n).mp hk).resolve_right he
      rw [hother (hs n hkn) he, Store.set, if_neg he]
      exact h.known n hkn
  · intro n label hnn hf hr
    have hf' := not_or.mp (mt (hs' n).mpr hf)
    have := hother hnn hf'.2
    rw [hr] at this
    exact Eq.trans this (h.fresh n label hnn hf'.1 hr)

/-- The code does what a statement does. A property relates the values of the variables to the
state in which the run goes on. -/
def Machine.Executes (printer : Printer) (code : List Instr) (m : Machine)
    (holds : Store → Machine → Prop) : Effect → Prop
  | .next σ printed => ∃ m', Runs printer code m m' ∧ holds σ m' ∧ m'.printed = m.printed ++ printed
  | .stop ending => ∃ m', Stops printer code m ending m' ∧ m'.printed = m.printed

theorem Machine.Evaluates.executes {is js : List Instr} {v : Option Int64} {next : Int64 → Effect}
    {holds : Store → Machine → Prop} (he : Evaluates printer is m low v)
    (hjs : ∀ v m', m.Keeps low m' → m'.rsp = m.rsp → m'.rax = .num v →
      Executes printer js m' holds (next v)) :
    Executes printer (is ++ js) m holds (.ofValue v next) := by
  cases v with
  | none =>
    obtain ⟨m₁, hs, hout⟩ := he
    exact ⟨m₁, hs.append js, hout⟩
  | some v =>
    obtain ⟨m₁, hr, hk, hsp, hout, hax⟩ := he
    have h := hjs v m₁ hk hsp hax
    have hof : Effect.ofValue (some v) next = next v := rfl
    rw [hof]
    cases hv : next v with
    | next σ printed =>
      rw [hv] at h
      obtain ⟨m₂, hr', hh, hout'⟩ := h
      exact ⟨m₂, hr.append hr', hh, by rw [hout', hout]⟩
    | stop ending =>
      rw [hv] at h
      obtain ⟨m₂, hs, hout'⟩ := h
      exact ⟨m₂, hr.stops hs, hout'.trans hout⟩

theorem clearResult_evaluates (printer : Printer) (m : Machine) (low : Int) :
    Evaluates printer [clearResult] m low (some 0) :=
  ⟨{ m with rax := .num 0 }, .single rfl, ⟨rfl, rfl, fun _ _ => rfl⟩, rfl, rfl, rfl⟩

theorem runs_store {o : Operand} (ho : o.Within size) {v : Int64} (hax : m.rax = .num v)
    (hs : m.store? (.num v) o = some m') : Runs printer [.mov o (.reg .accumulator)] m m' := by
  refine .single ?_
  have hmov : movable o (.reg .rax) = true := by cases ho <;> rfl
  simp [step, Reg.accumulator, hmov, Machine.load?, get?, hax, hs]

theorem runs_clear {offset : Int} (hs : m.store? (.num 0) (.mem (.slot offset)) = some m') :
    Runs printer (Storage.localVar.clear (.mem (.slot offset))) m m' := by
  refine .single ?_
  have haddr := m.address?_quad offset
  simp only [store?] at hs
  simp [step, Operand.quad, movable, Mem.quad, Machine.load?, store?, ← haddr] at hs ⊢
  exact hs

/-- Printing may change everything but what lies from the stack pointer on. -/
theorem printCode_runs {v : Int64} (hsp : m.rsp = .address low) (hax : m.rax = .num v) :
    ∃ m', Runs printer printCode m m' ∧ m.Keeps low m' ∧ m'.rsp = m.rsp ∧
      m'.printed = m.printed ++ [v] := by
  have hmov : m.step printer (.mov (.reg .rsi) (.reg .accumulator)) =
      some (.next { m with rsi := .num v }) := by
    simp [step, movable, Machine.load?, store?, set?, get?, Reg.accumulator, hax]
  let m₁ := { m with rsi := .num v, rdi := .label printFormat, rax := .num 0 }
  have hcall : m₁.step printer (.call printFunction) = some (.next { m₁ with
      rax := printer.rax m₁, rcx := printer.rcx m₁, rdx := printer.rdx m₁, rsi := printer.rsi m₁,
      rdi := printer.rdi m₁, printed := m.printed ++ [v],
      stack := fun b => if b < low then printer.below m₁ b else m.stack b }) := by
    simp [step, print?, m₁, hsp]
  refine ⟨_, .cons hmov (.cons rfl (.cons rfl (.single hcall))), ⟨rfl, rfl, ?_⟩, rfl, rfl⟩
  intro a ha
  exact if_neg (by omega)

theorem epilogue_stops {v : Int64} (h : m.Holds place named base size s σ) (hax : m.rax = .num v) :
    ∃ m', Stops printer epilogue m (.value v) m' ∧ m'.printed = m.printed := by
  obtain ⟨old, hold⟩ := h.saved
  have hmov : m.step printer (.mov (.reg .rsp) (.reg .frameBase)) =
      some (.next { m with rsp := .address base }) := by
    simp [step, movable, Machine.load?, store?, set?, get?, Reg.frameBase, h.rbp]
  let m₁ := { m with rsp := .address (base + 8), rbp := old }
  have hpop : Machine.step printer { m with rsp := .address base } (.pop .frameBase) =
      some (.next m₁) := by
    simp [step, pop?, hold, set?, Reg.frameBase, m₁]
  refine ⟨{ m₁ with rsp := .address (base + 8 + 8) },
    (Runs.cons hmov (.single hpop)).stops (.single ?_), rfl⟩
  simp [step, leave?, pop?, m₁, h.caller, hax]

theorem Machine.Holds.store_executes (hp : Placing place size named)
    (hs : ∀ n, s.Knows n → named n) (h : m.Holds place named base size s σ) {name : Text}
    (hn : named name) (hs' : ∀ n, s'.Knows n ↔ s.Knows n ∨ n = name) {v : Int64}
    (hax : m.rax = .num v) : Executes printer [.mov (place name) (.reg .accumulator)] m
      (fun σ' m' => m'.Holds place named base size s' σ') (.next (σ.set name v) []) := by
  obtain ⟨m', hstore, hholds, hout⟩ := h.store hp hs hn hs' v
  exact ⟨m', runs_store (hp.within name hn) hax hstore, hholds, by rw [hout, List.append_nil]⟩

/-- The place is of the sort that the declaration asks for. -/
def Storage.Fits : Storage → Operand → Prop
  | .globalVar, o => ∃ label, o = .rel label
  | .localVar, o => ∃ offset, o = .mem (.slot offset)

/-- A declaration without a value leaves zero: a local is cleared, and the cell of a global was
not written before. -/
theorem Machine.Holds.clear_executes (hp : Placing place size named)
    (hs : ∀ n, s.Knows n → named n) (h : m.Holds place named base size s σ) {name : Text}
    (hn : named name) (hnew : ¬ s.Knows name) (hs' : ∀ n, s'.Knows n ↔ s.Knows n ∨ n = name)
    {storage : Storage} (hfits : storage.Fits (place name)) :
    Executes printer (storage.clear (place name)) m
      (fun σ' m' => m'.Holds place named base size s' σ') (.next (σ.set name 0) []) := by
  cases storage with
  | globalVar =>
    obtain ⟨label, hl⟩ := hfits
    refine ⟨m, .nil m, ⟨h.rbp, h.rsp, h.saved, h.caller, ?_, ?_⟩, (List.append_nil _).symm⟩
    · intro n hk
      by_cases he : n = name
      · rw [he, Store.set, if_pos rfl, hl]
        exact h.fresh name label hn hnew hl
      · rw [Store.set, if_neg he]
        exact h.known n (((hs' n).mp hk).resolve_right he)
    · intro n l hnn hf
      exact h.fresh n l hnn fun hk => hf ((hs' n).mpr (.inl hk))
  | localVar =>
    obtain ⟨offset, ho⟩ := hfits
    obtain ⟨m', hstore, hholds, hout⟩ := h.store hp hs hn hs' 0
    rw [ho] at hstore ⊢
    exact ⟨m', runs_clear hstore, hholds, by rw [hout, List.append_nil]⟩

/-- One statement: its code takes the machine from the values before it to those after it. -/
theorem Stmt.code_executes (hp : Placing place size named) (hsize : 0 ≤ size) {st : Stmt}
    (hs : st.node.layout s = .ok () s') (hnamed : ∀ n, s'.Knows n → named n)
    (hfits : ∀ d ∈ st.declared, d.1.Fits (place d.2.name))
    (h : m.Holds place named base size s σ) :
    Executes printer (st.code place) m (fun σ' m' => m'.Holds place named base size s' σ')
      (st.effect σ) := by
  obtain ⟨hu, hd⟩ := Stmt.layout_eq_ok.mp hs
  have hold : ∀ n, s.Knows n → named n := fun n hk => hnamed n ((Node.layout_grows hs).knows hk)
  have heval (e : Expr) (he : ∀ id ∈ e.idents, s.Knows id.name) :
      Evaluates printer (e.code place) m (base - size) (e.eval σ) :=
    e.code_evaluates h.rbp h.rsp (Int.le_refl _) fun id hid =>
      ⟨hp.within _ (hold _ (he id hid)), h.known _ (he id hid)⟩
  cases st with
  | declare tok storage name init =>
    have hdecl := declare_of_layout hs (d := (storage, name)) (by simp [declared])
    obtain ⟨hnew, hknows⟩ := Declaring.knows_declare hdecl
    have hn : named name.name := hnamed _ ((hknows _).mpr (.inr rfl))
    cases init with
    | none =>
      have hfit : storage.Fits (place name.name) := hfits (storage, name) (by simp [declared])
      exact h.clear_executes hp hold hn hnew hknows hfit
    | some init =>
      refine (heval init hu).executes fun v m₁ hk hsp hax => ?_
      exact (h.of_keeps hp hold hsize hk hsp).store_executes hp hold hn hknows hax
  | assign tok target value =>
    cases hd
    simp only [uses, List.forall_mem_cons] at hu
    refine (heval value hu.2).executes fun v m₁ hk hsp hax => ?_
    have hknows (n : Text) : s.Knows n ↔ s.Knows n ∨ n = target.name :=
      ⟨.inl, fun hor => hor.elim id fun he => he ▸ hu.1⟩
    exact (h.of_keeps hp hold hsize hk hsp).store_executes hp hold (hold _ hu.1) hknows hax
  | print tok value =>
    cases hd
    refine (heval value hu).executes fun v m₁ hk hsp hax => ?_
    obtain ⟨m₂, hrun, hk₂, hsp₂, hout⟩ := printCode_runs (hsp.trans h.rsp) hax
    exact ⟨m₂, hrun, h.of_keeps hp hold hsize (hk.trans hk₂) (hsp₂.trans hsp), hout⟩
  | ret tok value =>
    have hleave (v : Int64) (m₁ : Machine) (hk : m.Keeps (base - size) m₁) (hsp : m₁.rsp = m.rsp)
        (hax : m₁.rax = .num v) : Executes printer epilogue m₁
          (fun σ' m' => m'.Holds place named base size s' σ') (.stop (.value v)) :=
      epilogue_stops (h.of_keeps hp hold hsize hk hsp) hax
    cases value with
    | none => exact (clearResult_evaluates printer m _).executes hleave
    | some value => exact (heval value hu).executes hleave

/-- All statements and the end of the body: the run has the outcome of the statements. -/
theorem run_stmts (hp : Placing place size named) (hsize : 0 ≤ size) {ss : List Stmt}
    (hs : layoutAll (ss.map Stmt.node) s = .ok () s') (hnamed : ∀ n, s'.Knows n → named n)
    (hfits : ∀ st ∈ ss, ∀ d ∈ st.declared, d.1.Fits (place d.2.name))
    (h : m.Holds place named base size s σ) :
    ∃ m', run printer (ss.flatMap (Stmt.code place) ++ closing) m =
        some ((outcome σ ss).ending, m') ∧
      m'.printed = m.printed ++ (outcome σ ss).printed := by
  induction ss generalizing s σ m with
  | nil =>
    cases hs
    obtain ⟨m₁, hr, hk, hsp, hout, hax⟩ := clearResult_evaluates printer m (base - size)
    obtain ⟨m₂, hstop, hout₂⟩ := epilogue_stops (h.of_keeps hp hnamed hsize hk hsp) hax
    exact ⟨m₂, hr.stops hstop [], by simp [outcome, hout₂, hout]⟩
  | cons st ss ih =>
    obtain ⟨s₁, h₁, h₂, hg⟩ := layoutAll_cons_eq_ok hs
    have hst : Executes printer (st.code place) m
        (fun σ' m' => m'.Holds place named base size s₁ σ') (st.effect σ) :=
      st.code_executes hp hsize h₁ (fun n hk => hnamed n (hg.knows hk)) (hfits st (by simp)) h
    rw [List.flatMap_cons, List.append_assoc, outcome]
    cases he : st.effect σ with
    | next σ' printed =>
      rw [he] at hst
      obtain ⟨m₁, hr, hh, hout⟩ := hst
      obtain ⟨m₂, hrun, hout₂⟩ := ih h₂ (fun st' hst' => hfits st' (by simp [hst'])) hh
      exact ⟨m₂, by rw [hr, hrun], by rw [hout₂, hout, List.append_assoc]⟩
    | stop ending =>
      rw [he] at hst
      obtain ⟨m₁, hstop, hout⟩ := hst
      exact ⟨m₁, hstop _, by rw [hout, List.append_nil]⟩

end IntLang
