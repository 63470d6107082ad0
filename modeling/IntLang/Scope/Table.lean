import IntLang.Scope.SemanticError

/-! The global variables of a compilation, in the order of their declarations. -/
namespace IntLang

structure Global where
  name : Text
  label : Text
  line : Int
  deriving DecidableEq, Repr

/-- What may stand in the label of a named global. -/
def Glyph.isLabelPart : Glyph → Bool
  | .char c => c == '_' || c.isAlphanum
  | .stray _ => false

/-- A name that the assembler can take is part of the label; other globals are numbered. An
identifier never starts with a digit, so a number is no such name. -/
def labelFor (name : Text) (index : Nat) : Text :=
  if name.all Glyph.isLabelPart then "g_" ++ name else "g_" ++ Decimal.ofNat index

structure Table where
  globals : List Global := []
  deriving DecidableEq, Repr

namespace Table

def find? (t : Table) (name : Text) : Option Global := t.globals.find? fun g => g.name = name

/-- The entry that a declaration adds. -/
def entry (t : Table) (name : Text) (line : Int) : Global :=
  ⟨name, labelFor name t.globals.length, line⟩

def declare (t : Table) (name : Text) (line : Int) : Except SemanticError Table :=
  match t.find? name with
  | some previous => .error ⟨line, name, .globalRedeclared previous.line⟩
  | none => .ok ⟨t.globals ++ [t.entry name line]⟩

end Table
end IntLang
