import IntLang.Proofs.Machine.Basic

/-! The places of variables in the memory of a machine: what a write changes, and what stays. -/
namespace IntLang

/-- A place where a variable can be: a slot inside the frame, or the cell of a label. -/
inductive Operand.Within (size : Int) : Operand → Prop
  | slot {offset : Int} (low : -size ≤ offset) (high : offset + 8 ≤ 0) :
      Within size (.mem (.slot offset))
  | rel (label : Text) : Within size (.rel label)

/-- Two places that have no byte in common. -/
inductive Operand.Apart : Operand → Operand → Prop
  | slots {a b : Int} (h : a + 8 ≤ b ∨ b + 8 ≤ a) : Apart (.mem (.slot a)) (.mem (.slot b))
  | labels {k l : Text} (h : k ≠ l) : Apart (.rel k) (.rel l)
  | slotLabel (a : Int) (l : Text) : Apart (.mem (.slot a)) (.rel l)
  | labelSlot (l : Text) (a : Int) : Apart (.rel l) (.mem (.slot a))

namespace Machine

/-- The frame base, the cells and the stack from an address on are the same. -/
structure Keeps (low : Int) (m m' : Machine) : Prop where
  rbp : m'.rbp = m.rbp
  data : m'.data = m.data
  stack : ∀ a, low ≤ a → m'.stack a = m.stack a

namespace Keeps

variable {low high : Int} {m m' m'' : Machine}

theorem trans (h : m.Keeps low m') (h' : m'.Keeps low m'') : m.Keeps low m'' :=
  ⟨h'.rbp.trans h.rbp, h'.data.trans h.data,
    fun a ha => (h'.stack a ha).trans (h.stack a ha)⟩

theorem mono (h : m.Keeps low m') (hl : low ≤ high) : m.Keeps high m' :=
  ⟨h.rbp, h.data, fun a ha => h.stack a (Int.le_trans hl ha)⟩

end Keeps

theorem stack_write_self (m : Machine) (a : Int) (v : Value) : (m.write a v).stack a = some v := by
  simp [write]

theorem stack_write_apart {a b : Int} (h : a + 8 ≤ b ∨ b + 8 ≤ a) (m : Machine) (v : Value) :
    (m.write a v).stack b = m.stack b := by
  have hne : b ≠ a := by omega
  have hov : ¬ (b < a + 8 ∧ a < b + 8) := by omega
  simp only [write, if_neg hne, if_neg hov]

variable {m m' : Machine} {base size : Int}

theorem address?_slot (hb : m.rbp = .address base) (offset : Int) :
    m.address? (.slot offset) = some (base + offset) := by
  simp [address?, Mem.slot, Reg.frameBase, get?, hb]

theorem address?_quad (m : Machine) (offset : Int) :
    m.address? (Mem.slot offset).quad = m.address? (.slot offset) := by
  simp [address?, Mem.quad, Mem.slot]

theorem load?_slot (hb : m.rbp = .address base) (offset : Int) :
    m.load? (.mem (.slot offset)) = m.stack (base + offset) := by
  rw [load?, address?_slot hb, Option.bind_some]

/-- What is kept from the end of the frame on is enough to read every variable. -/
theorem Keeps.load? {low : Int} (h : m.Keeps low m') (hb : m.rbp = .address base)
    (hl : low ≤ base - size) {place : Operand} (hp : place.Within size) :
    m'.load? place = m.load? place := by
  cases hp with
  | slot hlow hhigh =>
    rw [load?_slot hb, load?_slot (h.rbp.trans hb)]
    exact h.stack _ (by omega)
  | rel label => exact congrFun h.data label

/-- The state after a place was written. All other places, the stack above the frame and the
registers are as before. -/
structure Stored (place : Operand) (v : Value) (base size : Int) (m m' : Machine) : Prop where
  store : m.store? v place = some m'
  load : m'.load? place = some v
  others : ∀ other : Operand, other.Within size → place.Apart other →
    m'.load? other = m.load? other
  above : ∀ a, base ≤ a → m'.stack a = m.stack a
  rbp : m'.rbp = m.rbp
  rsp : m'.rsp = m.rsp
  printed : m'.printed = m.printed

theorem stored_slot (hb : m.rbp = .address base) {offset : Int} (h : offset + 8 ≤ 0) (v : Value) :
    Stored (.mem (.slot offset)) v base size m (m.write (base + offset) v) where
  store := by rw [store?, address?_slot hb, Option.map_some]
  load := by
    have hw : (m.write (base + offset) v).rbp = .address base := hb
    rw [load?_slot hw, stack_write_self]
  others := by
    intro other _ hapart
    have hw : (m.write (base + offset) v).rbp = .address base := hb
    cases hapart with
    | slots hd =>
      rw [load?_slot hb, load?_slot hw]
      exact stack_write_apart (by omega) m v
    | slotLabel => rfl
  above := fun a ha => stack_write_apart (by omega) m v
  rbp := rfl
  rsp := rfl
  printed := rfl

theorem stored_rel {label : Text} {old : Value}
    (h : m.data label = some old) (v : Value) : Stored (.rel label) v base size m
      { m with data := fun l => if l = label then some v else m.data l } where
  store := by rw [store?, if_pos (by simp [h])]
  load := by simp [Machine.load?]
  others := by
    intro other _ hapart
    cases hapart with
    | labels hne => simp [Machine.load?, hne.symm]
    | labelSlot => rfl
  above := fun _ _ => rfl
  rbp := rfl
  rsp := rfl
  printed := rfl

/-- A place inside the frame can be written, and so can a cell that there is. -/
theorem exists_stored (hb : m.rbp = .address base) {place : Operand} (hp : place.Within size)
    (hcell : ∀ label, place = .rel label → ∃ old, m.data label = some old) (v : Value) :
    ∃ m', Stored place v base size m m' := by
  cases hp with
  | slot _ high => exact ⟨_, stored_slot hb high v⟩
  | rel label =>
    obtain ⟨old, h⟩ := hcell label rfl
    exact ⟨_, stored_rel h v⟩

end Machine
end IntLang
