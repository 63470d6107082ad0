import IntLang.Text.Basic

/-! Decimal numerals: how integers are written, and which texts are read as 64-bit values. -/
namespace IntLang.Decimal

def ofNat (n : Nat) : Text := (Nat.toDigits 10 n).map .char

/-- A minus sign stands before a negative number and nothing before any other. -/
def ofInt : Int → Text
  | .ofNat n => ofNat n
  | .negSucc n => .char '-' :: ofNat (n + 1)

/-- The numeral with its sign always written. -/
def signed (i : Int) : Text := if i < 0 then ofInt i else .char '+' :: ofInt i

/-- Go on reading ASCII digits after a number, for a value below a bound. The value never falls, so
the first digit that finds it at the bound ends the reading. -/
def below? (bound : Nat) : Nat → Text → Option Nat
  | n, [] => if n < bound then some n else none
  | n, .char c :: t =>
    if c.isDigit ∧ n < bound then below? bound (10 * n + (c.toNat - '0'.toNat)) t else none
  | _, .stray _ :: _ => none

/-- The natural number below a bound that is written by ASCII digits; at least one is needed. -/
def natBelow? (bound : Nat) (t : Text) : Option Nat := if t = [] then none else below? bound 0 t

/-- The least magnitude that needs a minus sign to fit a signed 64-bit word. -/
def wordLimit : Nat := 9223372036854775808

/-- The value of a numeral, with or without a sign, that fits a signed 64-bit word. -/
def word? : Text → Option Int64
  | .char '-' :: t => (natBelow? (wordLimit + 1) t).map fun n => Int64.ofInt (-n)
  | .char '+' :: t => (natBelow? wordLimit t).map fun n => Int64.ofInt n
  | t => (natBelow? wordLimit t).map fun n => Int64.ofInt n

theorem le_ofDigitChars (cs : List Char) (n : Nat) : n ≤ Nat.ofDigitChars 10 cs n := by
  induction cs generalizing n with
  | nil => simp
  | cons c cs ih =>
    rw [Nat.ofDigitChars_cons]
    have := ih (10 * n + (c.toNat - '0'.toNat))
    omega

/-- Reading stops early only where the whole value would be too large as well. -/
theorem below?_digits (bound n : Nat) (cs : List Char) (h : ∀ c ∈ cs, c.isDigit) :
    below? bound n (cs.map .char) =
      if Nat.ofDigitChars 10 cs n < bound then some (Nat.ofDigitChars 10 cs n) else none := by
  induction cs generalizing n with
  | nil => simp [below?]
  | cons c cs ih =>
    rw [List.forall_mem_cons] at h
    rw [List.map_cons, below?, Nat.ofDigitChars_cons]
    by_cases hn : n < bound
    · rw [if_pos ⟨h.1, hn⟩, ih _ h.2]
    · have := le_ofDigitChars cs (10 * n + (c.toNat - '0'.toNat))
      rw [if_neg fun hc => hn hc.2, if_neg (by omega)]

end IntLang.Decimal
