import IntLang.Text.Decimal

/-! Which numerals are read as words, and how they are written again. A number reads back as itself,
and a numeral comes back without its leading zeros. -/
namespace IntLang.Decimal

/-- Digits alone are read as the number they stand for, if it fits. -/
theorem word?_digits {cs : List Char} (hne : cs ≠ []) (h : ∀ c ∈ cs, c.isDigit = true) :
    word? (cs.map .char) =
      if Nat.ofDigitChars 10 cs 0 < wordLimit then some (Int64.ofInt (Nat.ofDigitChars 10 cs 0))
      else none := by
  obtain ⟨c, rest, rfl⟩ := List.exists_cons_of_ne_nil hne
  have hc : c.isDigit = true := h c (by simp)
  have hminus : c ≠ '-' := by
    rintro rfl
    exact absurd hc (by decide)
  have hplus : c ≠ '+' := by
    rintro rfl
    exact absurd hc (by decide)
  -- the first character is no sign, so the reading falls to the last case
  have hread : word? ((c :: rest).map .char) =
      (natBelow? wordLimit ((c :: rest).map .char)).map fun n => Int64.ofInt n := by
    rw [word?.eq_def]
    split
    · rename_i e
      simp only [List.map_cons, List.cons.injEq, Glyph.char.injEq] at e
      exact absurd e.1 hminus
    · rename_i e
      simp only [List.map_cons, List.cons.injEq, Glyph.char.injEq] at e
      exact absurd e.1 hplus
    · rfl
  have hvalue : natBelow? wordLimit ((c :: rest).map .char) =
      if Nat.ofDigitChars 10 (c :: rest) 0 < wordLimit then
        some (Nat.ofDigitChars 10 (c :: rest) 0) else none := by
    rw [natBelow?, if_neg (by simp), below?_digits wordLimit 0 (c :: rest) h]
  rw [hread, hvalue]
  split <;> rfl

theorem exists_ofInt {v : Int64} (h : 0 ≤ v) :
    ∃ n : Nat, v.toInt = n ∧ n < wordLimit ∧ ofInt v.toInt = ofNat n := by
  have hnonneg : 0 ≤ v.toInt := by simpa using Int64.le_iff_toInt_le.mp h
  have hlt : v.toInt < 9223372036854775808 := v.toInt_lt
  obtain ⟨n, hn⟩ := Int.eq_ofNat_of_zero_le hnonneg
  refine ⟨n, hn, ?_, by rw [hn]; rfl⟩
  rw [wordLimit]
  omega

/-- A word that is not negative reads back from its numeral. -/
theorem word?_ofInt {v : Int64} (h : 0 ≤ v) : word? (ofInt v.toInt) = some v := by
  obtain ⟨n, hn, hlt, htext⟩ := exists_ofInt h
  have hdigits : ∀ c ∈ Nat.toDigits 10 n, c.isDigit = true :=
    fun c hc => Nat.isDigit_of_mem_toDigits (by omega) (by omega) hc
  rw [htext, ofNat, word?_digits Nat.toDigits_ne_nil hdigits, Nat.ofDigitChars_ten_toDigits,
    if_pos hlt, ← hn, Int64.ofInt_toInt]

/-- A numeral without its leading zeros; a zero stays where there is nothing else. -/
def unpadded (cs : List Char) : List Char :=
  match cs.dropWhile (· = '0') with
  | [] => ['0']
  | ds => ds

/-- A digit is the one that is written for its value. -/
theorem digitChar_value {c : Char} (h : c.isDigit = true) :
    c.toNat - '0'.toNat < 10 ∧ (c.toNat - '0'.toNat).digitChar = c := by
  simp only [Char.isDigit, ge_iff_le, Bool.and_eq_true, decide_eq_true_eq] at h
  have hlow : 48 ≤ c.toNat := h.1
  have hhigh : c.toNat ≤ 57 := h.2
  have hzero : '0'.toNat = 48 := rfl
  have hlt : c.toNat - '0'.toNat < 10 := by omega
  refine ⟨hlt, ?_⟩
  apply Char.toNat_inj.mp
  rw [Nat.toNat_digitChar_of_lt_ten hlt]
  omega

/-- Digits behind a number that is not zero are all kept. -/
theorem toDigits_ofDigitChars {cs : List Char} (h : ∀ c ∈ cs, c.isDigit = true) {n : Nat}
    (hn : 0 < n) : Nat.toDigits 10 (Nat.ofDigitChars 10 cs n) = Nat.toDigits 10 n ++ cs := by
  induction cs generalizing n with
  | nil => simp
  | cons c cs ih =>
    rw [List.forall_mem_cons] at h
    obtain ⟨hlt, hchar⟩ := digitChar_value h.1
    rw [Nat.ofDigitChars_cons, ih h.2 (by omega),
      ← Nat.toDigits_append_toDigits (by omega) hn hlt, Nat.toDigits_of_lt_base hlt, hchar,
      List.append_assoc, List.singleton_append]

/-- The number that a numeral stands for is written as the numeral without its leading zeros. -/
theorem toDigits_eq_unpadded {cs : List Char} (h : ∀ c ∈ cs, c.isDigit = true) :
    Nat.toDigits 10 (Nat.ofDigitChars 10 cs 0) = unpadded cs := by
  induction cs with
  | nil => rfl
  | cons c cs ih =>
    rw [List.forall_mem_cons] at h
    obtain ⟨hlt, hchar⟩ := digitChar_value h.1
    rw [Nat.ofDigitChars_cons, Nat.mul_zero, Nat.zero_add]
    by_cases hc : c = '0'
    · subst hc
      rw [Nat.sub_self, ih h.2, unpadded, unpadded, List.dropWhile_cons_of_pos rfl]
    · have hpos : 0 < c.toNat - '0'.toNat := by
        rcases Nat.eq_zero_or_pos (c.toNat - '0'.toNat) with hzero | hpos
        · rw [hzero] at hchar
          exact absurd hchar.symm hc
        · exact hpos
      rw [toDigits_ofDigitChars h.2 hpos, Nat.toDigits_of_lt_base hlt, hchar, unpadded,
        List.dropWhile_cons_of_neg (by simpa using hc), List.singleton_append]

end IntLang.Decimal
