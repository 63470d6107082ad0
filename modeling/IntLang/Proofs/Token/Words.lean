import IntLang.Proofs.Token.Cut

/-! The identifiers of a reader are words on one line, whatever it reads and whatever was given back
to it. -/
namespace IntLang

/-- Not empty, and not started by a digit. -/
def Text.IsWord (t : Text) : Prop :=
  ∃ g rest, t = g :: rest ∧ ∀ c, g = .char c → c.isDigit = false

theorem Text.isWord_char {c : Char} {rest : Text} :
    Text.IsWord (.char c :: rest) ↔ c.isDigit = false := by
  constructor
  · rintro ⟨_, _, ⟨⟩, h⟩
    exact h c rfl
  · intro h
    exact ⟨_, rest, rfl, fun d e => Glyph.char.inj e ▸ h⟩

instance Text.decidableIsWord : (t : Text) → Decidable t.IsWord
  | [] => isFalse fun ⟨_, _, h, _⟩ => List.cons_ne_nil _ _ h.symm
  | .char _ :: _ => decidable_of_iff _ isWord_char.symm
  | .stray b :: rest => isTrue ⟨.stray b, rest, rfl, fun _ h => Glyph.noConfusion h⟩

theorem Glyph.ofCode_eq_char {c : Int} {d : Char} (h : ofCode c = .char d) :
    (d.toNat : Int) = c ∨ d = replacement := by
  unfold ofCode at h
  split at h
  · rename_i hvalid
    rw [← Glyph.char.inj h, Char.ofNat, dif_pos hvalid.2]
    exact .inl (Int.toNat_of_nonneg hvalid.1)
  · exact .inr (Glyph.char.inj h).symm

theorem isWord_ofCode {c : Int} (hc : ¬ Charset.isDigit c = true) (rest : Text) :
    Text.IsWord (Glyph.ofCode c :: rest) := by
  refine ⟨_, rest, rfl, ?_⟩
  intro d hd
  rcases Glyph.ofCode_eq_char hd with hcode | rfl
  · rw [← Charset.isDigit_toNat, hcode]
    simpa using hc
  · decide

theorem ofCode_ne_newline {c : Int} (hc : c ≠ 10) : Glyph.ofCode c ≠ .char '\n' := by
  intro h
  rcases Glyph.ofCode_eq_char h with hcode | h
  · exact hc hcode.symm
  · cases h

namespace Reader

theorem tokenFrom_isWord {r r' : Reader} {c : Int} {t : Token} (h : r.tokenFrom c = (.ok t, r'))
    (hk : t.kind = .identifier) : t.lexeme.IsWord := by
  unfold tokenFrom at h
  split at h
  · unfold runToken at h
    split at h <;> cases h
    cases hk
  rename_i hd
  split at h
  · rename_i hs
    have hpart : Charset.isWordPart c = true := by simp [Charset.isWordPart, hs]
    rw [runToken, takeRun_of_read_code (read_unread r _), if_pos hpart] at h
    cases hr : r.takeRun Charset.isWordPart with
    | mk result rest =>
      cases result with
      | error f => simp [hr] at h
      | ok run =>
        simp only [hr, Prod.mk.injEq, Except.ok.injEq] at h
        rw [← h.1]
        exact isWord_ofCode hd run
  · cases h
    exact isWord_ofCode hd []

theorem mem_takeRun {cls : Int → Bool} {r r' : Reader} {run : Text}
    (h : r.takeRun cls = (.ok run, r')) {g : Glyph} (hg : g ∈ run) :
    ∃ c, cls c = true ∧ g = Glyph.ofCode c := by
  fun_induction takeRun cls r generalizing run r' with
  | case1 r c rest hr hc run₁ rest₁ hrun ih =>
    cases h
    rcases List.mem_cons.mp hg with rfl | hg
    · exact ⟨c, hc, rfl⟩
    · exact ih hrun hg
  | case2 r c rest hr hc f rest₁ hrun ih => cases h
  | case3 r c rest hr hc =>
    cases h
    cases hg
  | case4 r rest hr =>
    cases h
    cases hg
  | case5 r f rest hr => cases h

theorem tokenFrom_oneLine {r r' : Reader} {c : Int} {t : Token} (h : r.tokenFrom c = (.ok t, r'))
    (hk : t.kind = .identifier) : .char '\n' ∉ t.lexeme := by
  unfold tokenFrom at h
  split at h
  · unfold runToken at h
    split at h <;> cases h
    cases hk
  split at h
  · unfold runToken at h
    split at h
    · rename_i hrun
      cases h
      intro hmem
      obtain ⟨d, hd, hnewline⟩ := mem_takeRun hrun hmem
      refine ofCode_ne_newline ?_ hnewline.symm
      rintro rfl
      exact absurd hd (by decide)
    · cases h
  · cases h
    have hc : c ≠ 10 := by
      rintro rfl
      cases hk
    intro hmem
    exact ofCode_ne_newline hc (List.mem_singleton.mp hmem).symm

/-- What holds of every identifier that starts with some code holds of one that is read next. -/
theorem next_identifier {P : Text → Prop}
    (h : ∀ {r r' : Reader} {c : Int} {t : Token}, r.tokenFrom c = (.ok t, r') →
      t.kind = .identifier → P t.lexeme) {r r' : Reader} {t : Token} (hr : r.next = (.ok t, r'))
    (hk : t.kind = .identifier) : P t.lexeme := by
  unfold next at hr
  split at hr
  · cases hr
    cases hk
  · exact h hr hk
  · cases hr

theorem scan_identifier {P : Text → Prop}
    (h : ∀ {r r' : Reader} {t : Token}, r.next = (.ok t, r') → t.kind = .identifier → P t.lexeme)
    (r : Reader) : ∀ t ∈ r.scan.1.tokens, t.kind = .identifier → P t.lexeme := by
  fun_induction scan r with
  | case1 r t rest hr ht => simp
  | case2 r t rest hr ht later last hl ih =>
    intro u hu hk
    rcases List.mem_cons.mp hu with rfl | hu
    · exact h hr hk
    · exact ih u (by simpa [hl] using hu) hk
  | case3 r f rest hr => simp

theorem scan_isWord (r : Reader) :
    ∀ t ∈ r.scan.1.tokens, t.kind = .identifier → t.lexeme.IsWord :=
  r.scan_identifier (next_identifier tokenFrom_isWord)

theorem next_oneLine {r r' : Reader} {t : Token} (h : r.next = (.ok t, r'))
    (hk : t.kind = .identifier) : .char '\n' ∉ t.lexeme :=
  next_identifier (P := fun lexeme => .char '\n' ∉ lexeme) tokenFrom_oneLine h hk

theorem scan_oneLine (r : Reader) :
    ∀ t ∈ r.scan.1.tokens, t.kind = .identifier → .char '\n' ∉ t.lexeme :=
  r.scan_identifier (P := fun lexeme => .char '\n' ∉ lexeme) next_oneLine

end Reader

/-- Some reader gives this name as an identifier. -/
def Text.IsRead (name : Text) : Prop :=
  ∃ (r r' : Reader) (t : Token), r.next = (.ok t, r') ∧ t.kind = .identifier ∧ t.lexeme = name

theorem Text.IsRead.oneLine {name : Text} (h : name.IsRead) : .char '\n' ∉ name := by
  obtain ⟨r, r', t, hr, hk, rfl⟩ := h
  exact Reader.next_oneLine hr hk

end IntLang
