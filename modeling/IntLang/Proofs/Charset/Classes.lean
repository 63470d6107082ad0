import IntLang.Charset.Class
import IntLang.Token.Blank
import IntLang.Token.Kind

/-! How the classes of characters lie to one another: no character can both end one token and
start the next in two ways. -/
namespace IntLang.Charset

/-- The class of a character of a text. -/
def blank (c : Char) : Bool := isBlank c.toNat
def wordStart (c : Char) : Bool := isWordStart c.toNat
def wordPart (c : Char) : Bool := isWordPart c.toNat

theorem RangeTable.exists_range {t : RangeTable} {n : Nat} (h : t.contains n = true) :
    ∃ r ∈ t, r.1 ≤ n ∧ n ≤ r.2 := by
  induction t with
  | nil => cases h
  | cons r t ih =>
    obtain ⟨low, high⟩ := r
    rw [contains] at h
    split at h
    · cases h
    · rename_i hlow
      split at h
      · rename_i hhigh
        exact ⟨(low, high), by simp, by omega, hhigh⟩
      · obtain ⟨r, hr, hn⟩ := ih h
        exact ⟨r, by simp [hr], hn⟩

/-- What holds of every code below 64 and of every wide space holds of every blank. -/
theorem forall_blank {P : Nat → Prop} (low : ∀ n : Nat, n < 64 → isBlank n = true → P n)
    (wide : ∀ r ∈ wideSpaces, ∀ k < r.2 - r.1 + 1, P (r.1 + k)) {n : Nat}
    (h : isBlank n = true) : P n := by
  by_cases hn : n < 64
  · exact low n hn h
  · have hw : wideSpaces.contains n = true := by
      have hn' : ¬ ((0 : Int) ≤ n ∧ (n : Int) < 64) := by omega
      rw [isBlank, BlankSet.contains, if_neg hn'] at h
      simpa [RangeTable.has] using h
    obtain ⟨r, hr, h₁, h₂⟩ := RangeTable.exists_range hw
    have hk := wide r hr (n - r.1) (by omega)
    rwa [Nat.add_sub_cancel' h₁] at hk

theorem not_wordStart_of_blank {c : Char} (h : blank c = true) : wordStart c = false := by
  refine forall_blank (P := fun n => isWordStart n = false) ?_ ?_ h
  · decide +kernel
  · decide +kernel

theorem not_blank_of_wordStart {c : Char} (h : wordStart c = true) : blank c = false := by
  cases hb : blank c with
  | false => rfl
  | true =>
    rw [not_wordStart_of_blank hb] at h
    cases h

theorem isDigit_toNat (c : Char) : isDigit c.toNat = c.isDigit := by
  rw [Bool.eq_iff_iff]
  simp only [isDigit, Char.isDigit, Bool.and_eq_true, decide_eq_true_eq, ge_iff_le,
    UInt32.le_iff_toNat_le]
  change (48 : Int) ≤ (c.toNat : Int) ∧ (c.toNat : Int) ≤ 57 ↔ 48 ≤ c.toNat ∧ c.toNat ≤ 57
  omega

/-- What holds of the ten codes holds of every digit. -/
theorem forall_digit {P : Nat → Prop} (ten : ∀ k < 10, P (48 + k)) {c : Char}
    (h : c.isDigit = true) : P c.toNat := by
  rw [← isDigit_toNat] at h
  simp only [isDigit, Bool.and_eq_true, decide_eq_true_eq] at h
  have hk := ten (c.toNat - 48) (by omega)
  rwa [Nat.add_sub_cancel' (by omega)] at hk

theorem not_blank_of_digit {c : Char} (h : c.isDigit = true) : blank c = false :=
  forall_digit (P := fun n => isBlank n = false) (by decide) h

theorem not_wordStart_of_digit {c : Char} (h : c.isDigit = true) : wordStart c = false :=
  forall_digit (P := fun n => isWordStart n = false) (by decide) h

theorem not_digit_of_blank {c : Char} (h : blank c = true) : c.isDigit = false := by
  cases hd : c.isDigit with
  | false => rfl
  | true =>
    rw [not_blank_of_digit hd] at h
    cases h

theorem not_wordPart_of_blank {c : Char} (h : blank c = true) : wordPart c = false := by
  refine forall_blank (P := fun n => isWordPart n = false) ?_ ?_ h
  · decide +kernel
  · decide +kernel

theorem wordPart_of_wordStart {c : Char} (h : wordStart c = true) : wordPart c = true := by
  simp only [wordStart] at h
  simp [wordPart, isWordPart, h]

theorem blank_newline : blank '\n' = true := by decide

end IntLang.Charset
