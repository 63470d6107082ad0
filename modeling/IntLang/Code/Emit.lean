import IntLang.Code.Instr
import IntLang.Scope.Frame
import IntLang.Tree.Basic

/-! The second pass over a tree: its instructions. Every node leaves the value it computes, if
any, in the accumulator. -/
namespace IntLang

/-- A piece of code: one instruction, or the return sequence as a whole. -/
inductive Piece where
  | instr (i : Instr)
  | leave
  deriving DecidableEq, Repr

def Piece.instrs : Piece → List Instr
  | .instr i => [i]
  | .leave => epilogue

/-- The code written so far, and why no more is written. -/
structure Emission where
  code : List Piece := []
  halt : Option Halt := none
  deriving DecidableEq, Repr

namespace Emission

def ofInstrs (is : List Instr) : Emission where
  code := is.map .instr

def stop (h : Halt) : Emission where
  halt := some h

/-- One after another; after a halt nothing is written. -/
def andThen (a b : Emission) : Emission :=
  match a.halt with
  | none => ⟨a.code ++ b.code, b.halt⟩
  | some _ => a

@[simp] theorem empty_andThen (a : Emission) : andThen {} a = a := rfl

@[simp] theorem andThen_empty (a : Emission) : a.andThen {} = a := by
  obtain ⟨code, _ | h⟩ := a <;> simp [andThen]

theorem andThen_assoc (a b c : Emission) : (a.andThen b).andThen c = a.andThen (b.andThen c) := by
  obtain ⟨code, _ | h⟩ := a
  · obtain ⟨code', _ | h'⟩ := b <;> simp [andThen]
  · rfl

end Emission

/-- Where a variable is kept, if the name is known. -/
def Frame.operand? (f : Frame) (t : Table) (name : Text) : Except Misuse (Option Operand) := do
  match ← f.resolve t name with
  | .globalVar => return some (.rel (← f.globalLabel t name))
  | .localVar => return some (.mem (.slot (← f.localOffset name)))
  | _ => return none

/-- Code that works on the place of a variable. -/
def Ident.emit (f : Frame) (t : Table) (id : Ident) (code : Operand → List Instr) : Emission :=
  match f.operand? t id.name with
  | .ok (some place) => .ofInstrs (code place)
  | .ok none => .stop (.rejected ⟨id.tok.line, id.name, .unknown⟩)
  | .error m => .stop (.misused m)

def Ident.load (f : Frame) (t : Table) (id : Ident) : Emission :=
  id.emit f t fun place => [.mov (.reg .accumulator) place]

def Ident.store (f : Frame) (t : Table) (id : Ident) : Emission :=
  id.emit f t fun place => [.mov place (.reg .accumulator)]

/-- A local without an initialiser starts as zero. -/
def Ident.clear (f : Frame) (id : Ident) : Emission :=
  match f.localOffset id.name with
  | .ok offset => .ofInstrs [.mov (.mem (Mem.slot offset).quad) (.imm 0)]
  | .error m => .stop (.misused m)

/-- An operator on the accumulator and `rcx`. -/
def operatorCode (op : Kind) : Emission :=
  if op = .char '+' then .ofInstrs [.add .accumulator .rcx]
  else if op = .char '-' then .ofInstrs [.sub .accumulator (.reg .rcx)]
  else if op = .char '*' then .ofInstrs [.imul .accumulator .rcx]
  else if op = .char '/' then .ofInstrs [.cqo, .idiv .rcx]
  else .stop (.misused (.badOperator op))

/-- Zero as the value of the function. -/
def clearResult : Instr := .xor .eax .eax

def printCode : List Instr :=
  [.mov (.reg .rsi) (.reg .accumulator), .lea .rdi (.rel printFormat), clearResult,
    .call printFunction]

mutual

def Node.emit (f : Frame) (t : Table) : Node → Emission
  | .program _ stmts => emitAll f t stmts
  | .ident id => id.load f t
  | .int _ value => .ofInstrs [.mov (.reg .accumulator) (.imm value.toInt)]
  | .binop _ op left right =>
    (left.emit f t).andThen <| (Emission.ofInstrs [.push .accumulator]).andThen <|
      (right.emit f t).andThen <|
      (Emission.ofInstrs [.mov (.reg .rcx) (.reg .accumulator), .pop .accumulator]).andThen
        (operatorCode op)
  | .assign _ target value => (value.emit f t).andThen (target.store f t)
  | .decl _ _ name (some init) => (init.emit f t).andThen (name.store f t)
  | .decl _ scope name none => if scope = .localVar then name.clear f else {}
  | .print _ value => (value.emit f t).andThen (.ofInstrs printCode)
  | .ret _ none => (Emission.ofInstrs [clearResult]).andThen { code := [.leave] }
  | .ret _ (some value) => (value.emit f t).andThen { code := [.leave] }
  | .late inner => inner.emit f t

def emitAll (f : Frame) (t : Table) : List Node → Emission
  | [] => {}
  | node :: rest => (node.emit f t).andThen (emitAll f t rest)

end

mutual

/-- The code of a node with what comes after it in place, so that no part is copied on the way up. -/
def Node.emitThen (f : Frame) (t : Table) (next : Emission) : Node → Emission
  | .program _ stmts => emitAllThen f t next stmts
  | .binop _ op left right =>
    left.emitThen f t <| (Emission.ofInstrs [.push .accumulator]).andThen <|
      right.emitThen f t <|
      (Emission.ofInstrs [.mov (.reg .rcx) (.reg .accumulator), .pop .accumulator]).andThen <|
      (operatorCode op).andThen next
  | .assign _ target value => value.emitThen f t ((target.store f t).andThen next)
  | .decl _ _ name (some init) => init.emitThen f t ((name.store f t).andThen next)
  | .print _ value => value.emitThen f t ((Emission.ofInstrs printCode).andThen next)
  | .ret _ (some value) => value.emitThen f t (Emission.andThen { code := [.leave] } next)
  | .late inner => inner.emitThen f t next
  | .ident id => (id.load f t).andThen next
  | .int tok value => ((Node.int tok value).emit f t).andThen next
  | .decl tok scope name none => ((Node.decl tok scope name none).emit f t).andThen next
  | .ret tok none => ((Node.ret tok none).emit f t).andThen next

def emitAllThen (f : Frame) (t : Table) (next : Emission) : List Node → Emission
  | [] => next
  | node :: rest => node.emitThen f t (emitAllThen f t next rest)

end

mutual

theorem Node.emitThen_eq (f : Frame) (t : Table) (next : Emission) :
    (n : Node) → n.emitThen f t next = (n.emit f t).andThen next
  | .program _ stmts => by rw [Node.emitThen, Node.emit, emitAllThen_eq f t next stmts]
  | .binop _ _ left right => by
    rw [Node.emitThen, Node.emit, left.emitThen_eq, right.emitThen_eq]
    simp only [Emission.andThen_assoc]
  | .assign _ _ value => by
    rw [Node.emitThen, Node.emit, value.emitThen_eq, Emission.andThen_assoc]
  | .decl _ _ _ (some init) => by
    rw [Node.emitThen, Node.emit, init.emitThen_eq, Emission.andThen_assoc]
  | .print _ value => by
    rw [Node.emitThen, Node.emit, value.emitThen_eq, Emission.andThen_assoc]
  | .ret _ (some value) => by
    rw [Node.emitThen, Node.emit, value.emitThen_eq, Emission.andThen_assoc]
  | .late inner => by rw [Node.emitThen, Node.emit, inner.emitThen_eq]
  | .ident _ => by rw [Node.emitThen, Node.emit]
  | .int _ _ => by rw [Node.emitThen]
  | .decl _ _ _ none => by rw [Node.emitThen]
  | .ret _ none => by rw [Node.emitThen]

theorem emitAllThen_eq (f : Frame) (t : Table) (next : Emission) :
    (ns : List Node) → emitAllThen f t next ns = (emitAll f t ns).andThen next
  | [] => rfl
  | node :: rest => by
    rw [emitAllThen, emitAll, node.emitThen_eq, emitAllThen_eq f t next rest,
      Emission.andThen_assoc]

end

/-- With nothing after it the code is that of the node alone. -/
theorem Node.emitThen_empty (f : Frame) (t : Table) (n : Node) : n.emitThen f t {} = n.emit f t := by
  rw [n.emitThen_eq, Emission.andThen_empty]

end IntLang
