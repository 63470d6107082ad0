import IntLang.Code.Operand

/-! The instructions that programs are made of. -/
namespace IntLang

inductive Instr where
  | mov (dst src : Operand)
  | push (r : Reg)
  | pop (r : Reg)
  | add (dst src : Reg)
  | sub (dst : Reg) (src : Operand)
  | imul (dst src : Reg)
  | cqo
  | idiv (r : Reg)
  | lea (dst : Reg) (src : Operand)
  | xor (dst src : Reg)
  /-- A call of a function of another module. -/
  | call (function : Text)
  | ret
  deriving DecidableEq, Repr

def Instr.text : Instr → Text
  | .mov dst src => "mov " ++ dst.text ++ ", " ++ src.text
  | .push r => "push " ++ r.text
  | .pop r => "pop " ++ r.text
  | .add dst src => "add " ++ dst.text ++ ", " ++ src.text
  | .sub dst src => "sub " ++ dst.text ++ ", " ++ src.text
  | .imul dst src => "imul " ++ dst.text ++ ", " ++ src.text
  | .cqo => "cqo"
  | .idiv r => "idiv " ++ r.text
  | .lea dst src => "lea " ++ dst.text ++ ", " ++ src.text
  | .xor dst src => "xor " ++ dst.text ++ ", " ++ src.text
  | .call function => "call " ++ function ++ " wrt ..plt"
  | .ret => "ret"

/-- The function that prints, and the label of its format. -/
def printFunction : Text := "printf"
def printFormat : Text := "fmt_int"

/-- Leave the function with the value in the accumulator. -/
def epilogue : List Instr :=
  [.mov (.reg .rsp) (.reg .frameBase), .pop .frameBase, .ret]

end IntLang
