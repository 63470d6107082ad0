import IntLang.Text.Decimal

/-! Operands of x86-64 instructions, as the assembler reads them. -/
namespace IntLang

inductive Reg where
  | rax
  | rcx
  | rdx
  | rsi
  | rdi
  | rbp
  | rsp
  | eax
  | named (spelling : Text)
  deriving DecidableEq, Repr

namespace Reg

/-- Where the value of an expression is left. -/
def accumulator : Reg := .rax

/-- What the places of locals are counted from. -/
def frameBase : Reg := .rbp

def text : Reg → Text
  | .rax => "rax"
  | .rcx => "rcx"
  | .rdx => "rdx"
  | .rsi => "rsi"
  | .rdi => "rdi"
  | .rbp => "rbp"
  | .rsp => "rsp"
  | .eax => "eax"
  | .named spelling => spelling

end Reg

/-- Memory at a distance from a register. The size is written only where it is not empty. -/
structure Mem where
  base : Reg
  disp : Int
  size : Text := []
  deriving DecidableEq, Repr

namespace Mem

def slot (offset : Int) : Mem where
  base := .frameBase
  disp := offset

def quad (m : Mem) : Mem := { m with size := "qword" }

def sizeText (m : Mem) : Text := if m.size = [] then [] else m.size ++ " "

def dispText (m : Mem) : Text := if m.disp = 0 then [] else Decimal.signed m.disp

def text (m : Mem) : Text := m.sizeText ++ "[" ++ m.base.text ++ m.dispText ++ "]"

end Mem

inductive Operand where
  | reg (r : Reg)
  | imm (value : Int)
  | mem (m : Mem)
  /-- The cell of a label. -/
  | rel (label : Text)
  deriving DecidableEq, Repr

def Operand.text : Operand → Text
  | .reg r => r.text
  | .imm value => Decimal.ofInt value
  | .mem m => m.text
  | .rel label => "[rel " ++ label ++ "]"

end IntLang
