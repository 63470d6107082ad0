import Mathlib.Data.List.Nodup
import IntLang.Proofs.Scope.Growth
import IntLang.Proofs.Token.Words

/-! Every variable has a place of its own. No name is declared twice, the slots of locals lie one
below the other, and no two globals share a label. -/
namespace IntLang

/-- In a list without two entries of one key, looking for a key finds the entry that has it. -/
theorem find?_eq_some_of_nodup {α : Type} {key : α → Text} {xs : List α}
    (h : (xs.map key).Nodup) {x : α} (hx : x ∈ xs) :
    xs.find? (fun y => key y = key x) = some x := by
  induction xs with
  | nil => cases hx
  | cons y xs ih =>
    rw [List.map_cons, List.nodup_cons] at h
    rcases List.mem_cons.mp hx with rfl | hx
    · simp
    · have hne : key y ≠ key x := fun e => h.1 (e ▸ List.mem_map_of_mem hx)
      rw [List.find?_cons_of_neg (by simpa using hne), ih h.2 hx]

theorem find?_eq_some_iff_of_nodup {α : Type} {key : α → Text} {xs : List α}
    (h : (xs.map key).Nodup) {name : Text} {x : α} :
    xs.find? (fun y => key y = name) = some x ↔ x ∈ xs ∧ key x = name := by
  constructor
  · intro hx
    exact ⟨List.mem_of_find?_eq_some hx, by simpa using List.find?_some hx⟩
  · rintro ⟨hx, rfl⟩
    exact find?_eq_some_of_nodup h hx

theorem nodup_map_append {α : Type} {key : α → Text} {xs : List α} {x : α}
    (h : (xs.map key).Nodup) (hx : xs.find? (fun y => key y = key x) = none) :
    ((xs ++ [x]).map key).Nodup := by
  rw [List.map_append, List.nodup_append]
  refine ⟨h, by simp, ?_⟩
  intro a ha b hb
  obtain ⟨y, hy, rfl⟩ := List.mem_map.mp ha
  obtain rfl : b = key x := by simpa using hb
  simpa using List.find?_eq_none.mp hx y hy

/-- What holds of all entries by their position holds after an entry is added. -/
theorem forall_getElem?_append {α : Type} {Q : Nat → α → Prop} {xs : List α} {x : α}
    (h : ∀ i y, xs[i]? = some y → Q i y) (hx : Q xs.length x) :
    ∀ i y, (xs ++ [x])[i]? = some y → Q i y := by
  intro i y hy
  rw [List.getElem?_append] at hy
  split at hy
  · exact h i y hy
  · have hi : i = xs.length := by
      have := (List.getElem?_eq_some_iff.mp hy).1
      simp only [List.length_singleton] at this
      omega
    subst hi
    simp only [Nat.sub_self, List.getElem?_cons_zero, Option.some.injEq] at hy
    rwa [← hy]

structure Table.WellFormed (t : Table) : Prop where
  names : (t.globals.map Global.name).Nodup
  labels : ∀ (i : Nat) (g : Global), t.globals[i]? = some g → g.label = labelFor g.name i

theorem Table.WellFormed.declare {t t' : Table} (h : t.WellFormed) {name : Text} {line : Int}
    (hd : t.declare name line = .ok t') : t'.WellFormed := by
  obtain ⟨hn, rfl⟩ := declare_eq_ok.mp hd
  exact ⟨nodup_map_append h.names hn, forall_getElem?_append h.labels rfl⟩

theorem Table.WellFormed.find?_name {t : Table} (h : t.WellFormed) {g : Global}
    (hg : g ∈ t.globals) : t.find? g.name = some g := find?_eq_some_of_nodup h.names hg

structure Builder.WellFormed (b : Builder) : Prop where
  names : (b.locals.map Local.name).Nodup
  offsets : ∀ (i : Nat) (l : Local), b.locals[i]? = some l →
    l.offset = -(wordSize * (i + 1) : Nat)

theorem Builder.WellFormed.declareLocal {b b' : Builder} (h : b.WellFormed) {t : Table}
    {name : Text} {line : Int} (hd : b.declareLocal t name line = .ok b') : b'.WellFormed := by
  obtain ⟨_, hn, _, rfl⟩ := declareLocal_eq_ok.mp hd
  exact ⟨nodup_map_append h.names hn, forall_getElem?_append h.offsets rfl⟩

theorem Builder.WellFormed.extends {P : Text → Prop} {s s' : Scopes} (h : s.builder.WellFormed)
    (he : s.Extends P s') : s'.builder.WellFormed := by
  induction he with
  | refl => exact h
  | declareGlobal _ _ _ ih => exact ih
  | declareLocal _ _ hd ih => exact ih.declareLocal hd

structure Scopes.WellFormed (s : Scopes) : Prop where
  table : s.table.WellFormed
  builder : s.builder.WellFormed
  apart : ∀ l ∈ s.builder.locals, s.table.find? l.name = none

theorem Scopes.wellFormed_empty : Scopes.WellFormed ⟨{}, {}⟩ :=
  ⟨⟨by simp, by simp⟩, ⟨by simp, by simp⟩, by simp⟩

theorem Scopes.WellFormed.extends {P : Text → Prop} {s s' : Scopes} (h : s.WellFormed)
    (he : s.Extends P s') : s'.WellFormed := by
  induction he with
  | refl => exact h
  | @declareGlobal s' name line t _ _ hd ih =>
    obtain ⟨_, hn, ht⟩ := Builder.declareGlobal_eq_ok.mp hd
    refine ⟨ih.table.declare ht, ih.builder, ?_⟩
    obtain ⟨_, rfl⟩ := Table.declare_eq_ok.mp ht
    intro l hl
    have hne : ¬ name = l.name := fun e => by
      have := List.find?_eq_none.mp hn l hl
      simp [e] at this
    have := ih.apart l hl
    simp_all [Table.find?, Table.entry]
  | @declareLocal s' name line b _ _ hd ih =>
    refine ⟨ih.table, ih.builder.declareLocal hd, ?_⟩
    obtain ⟨_, _, ht, rfl⟩ := Builder.declareLocal_eq_ok.mp hd
    intro l hl
    rcases List.mem_append.mp hl with hl | hl
    · exact ih.apart l hl
    · rwa [List.mem_singleton.mp hl]

theorem Scopes.Extends.named {P : Text → Prop} {s s' : Scopes} (he : s.Extends P s')
    (h : ∀ g ∈ s.table.globals, P g.name) : ∀ g ∈ s'.table.globals, P g.name := by
  induction he with
  | refl => exact h
  | declareGlobal _ named hd ih =>
    obtain ⟨_, _, ht⟩ := Builder.declareGlobal_eq_ok.mp hd
    obtain ⟨_, rfl⟩ := Table.declare_eq_ok.mp ht
    intro g hg
    rcases List.mem_append.mp hg with hg | hg
    · exact ih g hg
    · rwa [List.mem_singleton.mp hg]
  | declareLocal _ _ _ ih => exact ih

theorem Decimal.ofNat_injective {m n : Nat} (h : ofNat m = ofNat n) : m = n := by
  have hd : Nat.toDigits 10 m = Nat.toDigits 10 n :=
    (List.map_inj_right fun _ _ e => Glyph.char.inj e).mp h
  calc
    m = Nat.ofDigitChars 10 (Nat.toDigits 10 m) 0 := Nat.ofDigitChars_ten_toDigits.symm
    _ = Nat.ofDigitChars 10 (Nat.toDigits 10 n) 0 := by rw [hd]
    _ = n := Nat.ofDigitChars_ten_toDigits

theorem Decimal.not_isWord_ofNat (n : Nat) : ¬ (ofNat n).IsWord := by
  rintro ⟨g, rest, hn, hg⟩
  have hmem : g ∈ ofNat n := by simp [hn]
  obtain ⟨c, hc, rfl⟩ := List.mem_map.mp hmem
  have := Nat.isDigit_of_mem_toDigits (by omega) (by omega) hc
  simp [hg c rfl] at this

/-- Labels of words tell the names or the numbers apart. -/
theorem labelFor_eq {n m : Text} {i j : Nat} (hn : n.IsWord) (hm : m.IsWord)
    (h : labelFor n i = labelFor m j) : n = m ∨ i = j := by
  unfold labelFor at h
  split at h <;> split at h <;> have h := List.append_cancel_left h
  · exact .inl h
  · exact absurd (h ▸ hn) (Decimal.not_isWord_ofNat j)
  · exact absurd (h ▸ hm) (Decimal.not_isWord_ofNat i)
  · exact .inr (Decimal.ofNat_injective h)

/-- Globals that are named by words have labels of their own. -/
theorem Table.WellFormed.eq_of_label {t : Table} (h : t.WellFormed)
    (words : ∀ g ∈ t.globals, g.name.IsWord) {g g' : Global} (hg : g ∈ t.globals)
    (hg' : g' ∈ t.globals) (e : g.label = g'.label) : g = g' := by
  obtain ⟨i, hi⟩ := List.mem_iff_getElem?.mp hg
  obtain ⟨j, hj⟩ := List.mem_iff_getElem?.mp hg'
  rw [h.labels i g hi, h.labels j g' hj] at e
  rcases labelFor_eq (words g hg) (words g' hg') e with e | rfl
  · have := h.find?_name hg
    rw [e, h.find?_name hg'] at this
    exact (Option.some.inj this).symm
  · rw [hi] at hj
    exact Option.some.inj hj

theorem Table.WellFormed.nodup_label {t : Table} (h : t.WellFormed)
    (words : ∀ g ∈ t.globals, g.name.IsWord) : (t.globals.map Global.label).Nodup :=
  (h.names.of_map _).map_on fun _ hg _ hg' e => h.eq_of_label words hg hg' e

namespace Builder.WellFormed

variable {b : Builder}

/-- The slot of a local lies below the frame base, inside the room for all of them. -/
theorem offset_bounds (h : b.WellFormed) {l : Local} (hl : l ∈ b.locals) :
    -(wordSize * b.locals.length : Nat) ≤ l.offset ∧ l.offset + wordSize ≤ 0 := by
  obtain ⟨i, hi⟩ := List.mem_iff_getElem?.mp hl
  have hlt : i < b.locals.length := (List.getElem?_eq_some_iff.mp hi).1
  rw [h.offsets i l hi]
  simp only [wordSize]
  omega

/-- The slots of two locals do not overlap. -/
theorem offset_apart (h : b.WellFormed) {l l' : Local} (hl : l ∈ b.locals) (hl' : l' ∈ b.locals)
    (hne : l ≠ l') : l.offset + wordSize ≤ l'.offset ∨ l'.offset + wordSize ≤ l.offset := by
  obtain ⟨i, hi⟩ := List.mem_iff_getElem?.mp hl
  obtain ⟨j, hj⟩ := List.mem_iff_getElem?.mp hl'
  have hij : i ≠ j := by
    rintro rfl
    rw [hi] at hj
    exact hne (Option.some.inj hj)
  rw [h.offsets i l hi, h.offsets j l' hj]
  simp only [wordSize]
  omega

end Builder.WellFormed
end IntLang
