import IntLang.Proofs.Token.Cut

/-! Newlines in bytes and in text. The byte of a newline is no part of a longer character, so the
decoder makes a newline of this byte and of nothing else. -/
namespace IntLang

theorem Text.count_characters (t : Text) : t.characters.count '\n' = t.count (.char '\n') := by
  induction t with
  | nil => rfl
  | cons g t ih =>
    rw [characters, List.map_cons, List.count_cons, List.count_cons, ← ih, characters]
    cases g with
    | char c => simp
    | stray b => simp [Glyph.replacement]

namespace Utf8

theorem ofNat_eq_newline {n : Nat} : Char.ofNat n = '\n' ↔ n = 10 := by
  constructor
  · intro h
    by_cases hn : n.isValidChar
    · have hval : (Char.ofNat n).toNat = n := by
        rw [Char.ofNat, dif_pos hn]
        rfl
      rw [← hval, h]
      rfl
    · rw [Char.ofNat, dif_neg hn] at h
      exact absurd h (by decide)
  · rintro rfl
    rfl

/-- A character under way has no ASCII byte, and its value will be above that of a newline: what is
known of it counts two at least, now or with the least byte that can come next. -/
structure Pending.Wide (p : Pending) : Prop where
  low : 0x80 ≤ p.low.toNat
  value : 2 ≤ p.value ∨ 2 ≤ p.missing ∧ 2 ≤ p.value * 64 + (p.low.toNat - 0x80)

theorem lead?_wide {b : UInt8} {p : Pending} (h : lead? b = some p) : p.Wide := by
  have wide {value missing : Nat} {low high : UInt8} (hlow : 0x80 ≤ low.toNat)
      (hvalue : 2 ≤ value ∨ 2 ≤ missing ∧ 2 ≤ value * 64 + (low.toNat - 0x80))
      (hp : some ⟨[b], value, missing, low, high⟩ = some p) : p.Wide := by
    cases hp
    exact ⟨hlow, hvalue⟩
  simp only [lead?, UInt8.lt_iff_toNat_lt, ← UInt8.toNat_inj, UInt8.reduceToNat] at h
  split at h
  · cases h
  iterate 7
    split at h
    · exact wide (by decide) (by simp only [UInt8.reduceToNat]; omega) h
  cases h

theorem count_strays (p : Option Pending) : (strays p).count (.char '\n') = 0 := by
  rw [List.count_eq_zero]
  cases p with
  | none => simp [strays]
  | some p => simp [strays, Pending.strays]

theorem start_newlines (b : UInt8) :
    (start b).1.count (.char '\n') = [b].count 10 ∧ ∀ p ∈ (start b).2, p.Wide := by
  unfold start
  split
  · refine ⟨?_, by simp⟩
    by_cases hb : b = 10
    · simp [hb]
    · have hchar : Char.ofNat b.toNat ≠ '\n' := fun h =>
        hb (UInt8.toNat_inj.mp (ofNat_eq_newline.mp h))
      simp [hb, hchar]
  · rename_i hb
    have hne : b ≠ 10 := by
      rintro rfl
      exact hb (by decide)
    split
    · simp [hne]
    · rename_i p hp
      refine ⟨by simp [hne], ?_⟩
      rintro q ⟨⟩
      exact lead?_wide hp

/-- One byte completes as many newlines as it is, and what is under way after it is wide. -/
theorem feed_newlines {p : Option Pending} (hp : ∀ q ∈ p, q.Wide) (b : UInt8) :
    (feed p b).1.count (.char '\n') = [b].count 10 ∧ ∀ q ∈ (feed p b).2, q.Wide := by
  cases p with
  | none => exact start_newlines b
  | some p =>
    obtain ⟨hlow, hvalue⟩ := hp p rfl
    rw [feed]
    split
    · rename_i hb
      have hle : p.low.toNat ≤ b.toNat := UInt8.le_iff_toNat_le.mp hb.1
      have hne : b ≠ 10 := by
        rintro rfl
        have : (10 : UInt8).toNat = 10 := rfl
        omega
      simp only
      split
      · rename_i hlast
        have hchar : Char.ofNat (p.value * 64 + (b.toNat - 0x80)) ≠ '\n' := by
          rw [ne_eq, ofNat_eq_newline]
          omega
        simp [hne, hchar]
      · refine ⟨by simp [hne], ?_⟩
        rintro q ⟨⟩
        exact ⟨Nat.le_refl 0x80, .inl (by simp only; omega)⟩
    · obtain ⟨hcount, hwide⟩ := start_newlines b
      refine ⟨?_, hwide⟩
      have hnone := count_strays (some p)
      rw [strays] at hnone
      rw [List.count_append, hnone, hcount, Nat.zero_add]

theorem count_decodeOnto {p : Option Pending} (hp : ∀ q ∈ p, q.Wide) (done : Text)
    (bytes : List UInt8) : (decodeOnto done p bytes).count (.char '\n') =
      done.count (.char '\n') + bytes.count 10 := by
  induction bytes generalizing done p with
  | nil => simp [decodeOnto, count_strays]
  | cons b bytes ih =>
    obtain ⟨hcount, hwide⟩ := feed_newlines hp b
    rw [decodeOnto, ih hwide, List.count_append, List.count_reverse, hcount,
      List.count_singleton, List.count_cons]
    omega

/-- A text has as many newlines as its bytes have. -/
theorem count_decode (bytes : List UInt8) :
    (decode bytes).characters.count '\n' = bytes.count 10 := by
  rw [Text.count_characters, decode, count_decodeOnto (by simp), List.count_nil, Nat.zero_add]

end Utf8
end IntLang
