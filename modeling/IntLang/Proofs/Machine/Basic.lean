import IntLang.Code.Instr
import IntLang.Proofs.Tree.Meaning
import IntLang.Scope.Table

/-! The part of an x86-64 machine that straight-line code needs: seven registers, a stack, and one
cell of eight bytes for each label. What the machine has no rule for leaves it stuck. -/
namespace IntLang

/-- What a register or eight bytes of memory can hold. Addresses are not numbers here, so code
that takes the one for the other gets stuck. -/
inductive Value where
  | num (v : Int64)
  /-- An address in the stack. -/
  | address (a : Int)
  /-- The address of a label. -/
  | label (name : Text)
  /-- The address where the caller goes on. -/
  | caller
  deriving DecidableEq, Repr

/-- The stack is read eight bytes at a time, by the address of the first one. -/
structure Machine where
  rax : Value
  rcx : Value
  rdx : Value
  rsi : Value
  rdi : Value
  rbp : Value
  rsp : Value
  stack : Int → Option Value
  data : Text → Option Value
  printed : List Int64

/-- What the printing function leaves behind in the registers it may use and in the stack below
its caller. It may depend on all it finds. -/
structure Printer where
  rax : Machine → Value
  rcx : Machine → Value
  rdx : Machine → Value
  rsi : Machine → Value
  rdi : Machine → Value
  below : Machine → Int → Option Value

namespace Machine

def get? (m : Machine) : Reg → Option Value
  | .rax => some m.rax
  | .rcx => some m.rcx
  | .rdx => some m.rdx
  | .rsi => some m.rsi
  | .rdi => some m.rdi
  | .rbp => some m.rbp
  | .rsp => some m.rsp
  | .eax => none
  | .named _ => none

def set? (m : Machine) (v : Value) : Reg → Option Machine
  | .rax => some { m with rax := v }
  | .rcx => some { m with rcx := v }
  | .rdx => some { m with rdx := v }
  | .rsi => some { m with rsi := v }
  | .rdi => some { m with rdi := v }
  | .rbp => some { m with rbp := v }
  | .rsp => some { m with rsp := v }
  | .eax => none
  | .named _ => none

/-- Eight bytes are written; what overlaps them is no longer known. -/
def write (m : Machine) (a : Int) (v : Value) : Machine :=
  { m with stack := fun b =>
      if b = a then some v else if b < a + 8 ∧ a < b + 8 then none else m.stack b }

def address? (m : Machine) (p : Mem) : Option Int :=
  match m.get? p.base with
  | some (.address a) => if p.size = [] ∨ p.size = "qword" then some (a + p.disp) else none
  | _ => none

def load? (m : Machine) : Operand → Option Value
  | .reg r => m.get? r
  | .imm value => some (.num (.ofInt value))
  | .mem p => (m.address? p).bind m.stack
  | .rel label => m.data label

def store? (m : Machine) (v : Value) : Operand → Option Machine
  | .reg r => m.set? v r
  | .imm _ => none
  | .mem p => (m.address? p).map (m.write · v)
  | .rel label =>
    if (m.data label).isSome then
      some { m with data := fun l => if l = label then some v else m.data l }
    else none

/-- At most one side of a move is in memory, and one of them tells the size. A constant that goes to
memory has 32 bits. -/
def movable : Operand → Operand → Bool
  | .reg _, _ => true
  | .mem _, .reg _ => true
  | .rel _, .reg _ => true
  | .mem p, .imm value => p.size = "qword" && -2147483648 ≤ value && value < 2147483648
  | _, _ => false

def push? (m : Machine) (v : Value) : Option Machine :=
  match m.rsp with
  | .address a => some ({ m with rsp := .address (a - 8) }.write (a - 8) v)
  | _ => none

def pop? (m : Machine) : Option (Value × Machine) :=
  match m.rsp with
  | .address a => (m.stack a).map fun v => (v, { m with rsp := .address (a + 8) })
  | _ => none

def arith? (m : Machine) (op : Int64 → Int64 → Int64) (dst src : Reg) : Option Machine :=
  match m.get? dst, m.get? src with
  | some (.num a), some (.num b) => m.set? (.num (op a b)) dst
  | _, _ => none

/-- A stack address can also be moved down by a constant. -/
def subImm? (m : Machine) (dst : Reg) (value : Int) : Option Machine :=
  match m.get? dst with
  | some (.num a) => m.set? (.num (a - .ofInt value)) dst
  | some (.address a) => m.set? (.address (a - value)) dst
  | _ => none

/-- What one instruction leads to: the next one, or the end of the run. -/
inductive Step where
  | next (m : Machine)
  | stop (ending : Ending) (m : Machine)

/-- The signed quotient of the 128 bits in `rdx` and `rax`, cut off toward zero. -/
def divide? (m : Machine) (r : Reg) : Option Step :=
  match m.rdx, m.rax, m.get? r with
  | .num high, .num low, some (.num d) =>
    let n := high.toInt * 18446744073709551616 + low.toInt % 18446744073709551616
    if d.toInt ≠ 0 ∧ FitsWord (n.tdiv d.toInt) then
      some (.next { m with
        rax := .num (.ofInt (n.tdiv d.toInt)), rdx := .num (.ofInt (n.tmod d.toInt)) })
    else some (.stop .trap m)
  | _, _, _ => none

/-- Printing a number by the format for one. -/
def print? (m : Machine) (printer : Printer) : Option Machine :=
  match m.rdi, m.rsi, m.rsp with
  | .label format, .num v, .address a =>
    if format = printFormat then
      some { m with
        rax := printer.rax m, rcx := printer.rcx m, rdx := printer.rdx m, rsi := printer.rsi m,
        rdi := printer.rdi m, printed := m.printed ++ [v],
        stack := fun b => if b < a then printer.below m b else m.stack b }
    else none
  | _, _, _ => none

/-- The return to the caller, with a number as the value. -/
def leave? (m : Machine) : Option Step :=
  match m.pop?, m.rax with
  | some (.caller, m'), .num v => some (.stop (.value v) m')
  | _, _ => none

def step (printer : Printer) (m : Machine) : Instr → Option Step
  | .mov dst src =>
    if movable dst src then ((m.load? src).bind fun v => m.store? v dst).map .next else none
  | .push r => ((m.get? r).bind m.push?).map .next
  | .pop r => (m.pop?.bind fun (v, m') => m'.set? v r).map .next
  | .add dst src => (m.arith? (· + ·) dst src).map .next
  | .sub dst (.reg src) => (m.arith? (· - ·) dst src).map .next
  | .sub dst (.imm value) => (m.subImm? dst value).map .next
  | .sub _ _ => none
  | .imul dst src => (m.arith? (· * ·) dst src).map .next
  | .cqo =>
    match m.rax with
    | .num a => some (.next { m with rdx := .num (if a < 0 then -1 else 0) })
    | _ => none
  | .idiv r => m.divide? r
  | .lea dst (.rel label) => (m.set? (.label label) dst).map .next
  | .lea _ _ => none
  -- Clearing the low half of a register clears all of it.
  | .xor .eax .eax => some (.next { m with rax := .num 0 })
  | .xor _ _ => none
  | .call function => if function = printFunction then (m.print? printer).map .next else none
  | .ret => m.leave?

/-- A run has to end by a trap or by the return to the caller. -/
def run (printer : Printer) : List Instr → Machine → Option (Ending × Machine)
  | [], _ => none
  | i :: is, m =>
    match m.step printer i with
    | some (.next m') => run printer is m'
    | some (.stop ending m') => some (ending, m')
    | none => none

/-- The code leads from one state to another, whatever comes after it. -/
def Runs (printer : Printer) (is : List Instr) (m m' : Machine) : Prop :=
  ∀ js, run printer (is ++ js) m = run printer js m'

/-- The run ends inside the code. -/
def Stops (printer : Printer) (is : List Instr) (m : Machine) (ending : Ending) (m' : Machine) :
    Prop := ∀ js, run printer (is ++ js) m = some (ending, m')

section

variable {printer : Printer} {is js : List Instr} {m m' m'' : Machine} {ending : Ending}

theorem Runs.nil (m : Machine) : Runs printer [] m m := fun _ => rfl

theorem Runs.cons {i : Instr} (h : m.step printer i = some (.next m'))
    (h' : Runs printer is m' m'') : Runs printer (i :: is) m m'' := by
  intro js
  rw [List.cons_append, run, h]
  exact h' js

theorem Runs.single {i : Instr} (h : m.step printer i = some (.next m')) :
    Runs printer [i] m m' := .cons h (.nil m')

theorem Runs.append (h : Runs printer is m m') (h' : Runs printer js m' m'') :
    Runs printer (is ++ js) m m'' := by
  intro ks
  rw [List.append_assoc, h, h']

theorem Stops.single {i : Instr} (h : m.step printer i = some (.stop ending m')) :
    Stops printer [i] m ending m' := by
  intro js
  rw [List.cons_append, run, h]

theorem Stops.append (h : Stops printer is m ending m') (js : List Instr) :
    Stops printer (is ++ js) m ending m' := by
  intro ks
  rw [List.append_assoc, h]

theorem Runs.stops (h : Runs printer is m m') (h' : Stops printer js m' ending m'') :
    Stops printer (is ++ js) m ending m'' := by
  intro ks
  rw [List.append_assoc, h, h']

end
end Machine
end IntLang
