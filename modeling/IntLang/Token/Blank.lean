import IntLang.Charset.RangeTable
import IntLang.Misuse

/-! Blanks between tokens. A set of blanks chooses among the codes below 64; white space above
the ASCII range is always blank. -/
namespace IntLang

namespace Charset

/-- White space above the ASCII range. -/
def wideSpaces : RangeTable :=
  [(0x85, 0x85), (0xa0, 0xa0), (0x1680, 0x1680), (0x2000, 0x200a), (0x2028, 0x2029),
   (0x202f, 0x202f), (0x205f, 0x205f), (0x3000, 0x3000)]

end Charset

/-- Bit `n` tells if code `n` is blank. -/
structure BlankSet where
  mask : UInt64
  deriving DecidableEq, Repr

namespace BlankSet

def insert (s : BlankSet) (n : Nat) : BlankSet := ⟨s.mask ||| (1 <<< n.toUInt64)⟩

def ofCodes (codes : List Nat) : Except Misuse BlankSet :=
  if codes.all (· < 64) then .ok (codes.foldl insert ⟨0⟩) else .error .blankCodeTooHigh

def contains (s : BlankSet) (code : Int) : Bool :=
  if 0 ≤ code ∧ code < 64 then (s.mask >>> code.toNat.toUInt64) &&& 1 == 1
  else Charset.wideSpaces.has code

/-- Space, tab, carriage return, newline, vertical tab and form feed. -/
def source : BlankSet := [32, 9, 13, 10, 11, 12].foldl insert ⟨0⟩

end BlankSet

namespace Charset

/-- The blanks of a source text. -/
def isBlank (code : Int) : Bool := BlankSet.source.contains code

end Charset
end IntLang
