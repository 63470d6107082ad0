import IntLang.Proofs.Token.Pushback
import IntLang.Proofs.Token.Words

/-! How tokens are spelled. If no code that a reader has to read is below zero, as none of a text is,
then the kind of a keyword or a sign tells its lexeme. The codes below zero are those of the kinds, so
one that was given back by hand would be taken for a keyword that was not written. -/
namespace IntLang

/-- A character other than a newline. -/
def Glyph.isInline : Glyph → Bool
  | .char c => c ≠ '\n'
  | .stray _ => false

/-- Keywords and signs are written in one way, and names have characters of one line only. -/
structure Token.Exact (t : Token) : Prop where
  keyword : ∀ k, t.kind = .keyword k → t.lexeme = k.spelling
  sign : ∀ c : Char, t.kind = .char c → t.lexeme = [.char c]
  name : t.kind = .identifier → t.lexeme.all Glyph.isInline = true

theorem isInline_ofCode {c : Int} (h : Glyph.ofCode c ≠ .char '\n') :
    (Glyph.ofCode c).isInline = true := by
  unfold Glyph.ofCode at h ⊢
  split
  · rename_i hc
    rw [if_pos hc] at h
    simpa [Glyph.isInline] using h
  · rfl

namespace Reader

/-- No code that is still to be read is below zero. -/
def Unsigned (r : Reader) : Prop := ∀ i c, r.incoming i = .point (.code c) → 0 ≤ c

theorem unsigned_ofText (t : Text) : Unsigned (ofText t) := by
  intro i c hi
  have hitem : .point (.code c) ∈ items t := by
    cases h : (items t)[i]? with
    | none => simp [incoming, ofText, ofStream, rest, h] at hi
    | some item =>
      simp only [incoming, ofText, ofStream, List.map_nil, List.nil_append, h,
        Option.getD_some] at hi
      exact hi ▸ List.mem_of_getElem? h
  obtain ⟨g, _, hg⟩ := List.mem_map.mp hitem
  cases hg
  cases g with
  | char d => exact Int.natCast_nonneg _
  | stray b => exact Int.natCast_nonneg _

namespace Unsigned

variable {r r' : Reader} (h : r.Unsigned)

include h

theorem read {result : Except Failure Point} (hr : r.read = (result, r')) : r'.Unsigned := by
  intro i c hi
  obtain ⟨_, _, hin⟩ := read_incoming r
  rw [hr] at hin
  exact h (i + 1) c (by rw [← hin, hi])

theorem code {c : Int} (hr : r.read = (.ok (.code c), r')) : 0 ≤ c := by
  obtain ⟨hresult, _, _⟩ := read_incoming r
  rw [hr] at hresult
  cases hi : r.incoming 0 with
  | point p =>
    rw [hi] at hresult
    cases hresult
    exact h 0 c hi
  | failure f =>
    rw [hi] at hresult
    cases hresult

theorem unread {p : Point} (hp : ∀ c, p = .code c → 0 ≤ c) :
    (r.unread p).Unsigned := by
  intro i c hi
  rw [incoming_unread] at hi
  cases i with
  | zero =>
    cases hi
    exact hp c rfl
  | succ i => exact h i c hi

theorem skipBlanks : r.skipBlanks.2.Unsigned ∧
    ∀ c, r.skipBlanks.1 = .ok (.code c) → 0 ≤ c := by
  fun_induction Reader.skipBlanks r with
  | case1 r c rest hr _ ih => exact ih (h.read hr)
  | case2 r c rest hr _ =>
    refine ⟨h.read hr, ?_⟩
    rintro _ ⟨⟩
    exact h.code hr
  | case3 r rest hr => exact ⟨h.read hr, by simp⟩
  | case4 r f rest hr => exact ⟨h.read hr, by simp⟩

theorem takeRun (cls : Int → Bool) : (r.takeRun cls).2.Unsigned := by
  fun_induction Reader.takeRun cls r with
  | case1 r c rest hr _ run rest' hrun ih =>
    have := ih (h.read hr)
    rwa [hrun] at this
  | case2 r c rest hr _ f rest' hrun ih =>
    have := ih (h.read hr)
    rwa [hrun] at this
  | case3 r c rest hr _ =>
    refine (h.read hr).unread ?_
    rintro _ ⟨⟩
    exact h.code hr
  | case4 r rest hr => exact (h.read hr).unread (by simp)
  | case5 r f rest hr => exact h.read hr

theorem runToken (cls : Int → Bool) (kind : Text → Kind) :
    (r.runToken cls kind).2.Unsigned := by
  have hrun := h.takeRun cls
  unfold Reader.runToken
  cases hr : r.takeRun cls with
  | mk result rest =>
    rw [hr] at hrun
    cases result <;> exact hrun

theorem tokenFrom {c : Int} (hc : 0 ≤ c) : (r.tokenFrom c).2.Unsigned := by
  have hback : (r.unread (.code c)).Unsigned := by
    refine h.unread ?_
    rintro _ ⟨⟩
    exact hc
  unfold Reader.tokenFrom
  split
  · exact hback.runToken _ _
  split
  · exact hback.runToken _ _
  · exact h

end Unsigned

/-- A run of word characters is spelled as its kind, which is found from its spelling. -/
theorem runToken_exact {r r' : Reader} {cls : Int → Bool} {t : Token}
    (h : r.runToken cls Kind.ofWord = (.ok t, r')) (hcls : cls 10 = false) : t.Exact := by
  unfold runToken at h
  split at h
  · rename_i run rest hrun
    cases h
    have hword := wordKind_iff.mpr (rfl : Kind.ofWord run = Kind.ofWord run)
    refine ⟨?_, ?_, ?_⟩
    · intro k (hk : Kind.ofWord run = .keyword k)
      rw [hk] at hword
      cases hword with
      | keyword spelled => exact spelled
    · intro c (hc : Kind.ofWord run = .char c)
      rw [hc] at hword
      cases hword
    · intro _
      rw [List.all_eq_true]
      intro g hg
      obtain ⟨c, hc, rfl⟩ := mem_takeRun hrun hg
      refine isInline_ofCode (ofCode_ne_newline ?_)
      rintro rfl
      rw [hcls] at hc
      cases hc
  · cases h

theorem tokenFrom_exact {r r' : Reader} {n : Nat} {t : Token}
    (h : r.tokenFrom n = (.ok t, r')) : t.Exact := by
  unfold tokenFrom at h
  split at h
  · unfold runToken at h
    split at h <;> cases h
    exact ⟨by simp [token], by simp [token, Kind.char], by simp [token]⟩
  split at h
  · exact runToken_exact h (by decide)
  · cases h
    rw [Reader.token, Kind.ofCode_natCast]
    refine ⟨by simp, ?_, by simp⟩
    intro c hc
    have hcode : (n : Int) = c.toNat := Kind.single.inj hc
    rw [hcode, ofCode_toNat]

theorem Unsigned.next {r r' : Reader} {t : Token} (h : r.Unsigned)
    (hr : r.next = (.ok t, r')) : t.Exact ∧ r'.Unsigned := by
  obtain ⟨hskip, hcode⟩ := h.skipBlanks
  unfold Reader.next at hr
  split at hr
  · rename_i hs
    cases hr
    rw [hs] at hskip
    exact ⟨⟨by simp [Token.endOfFile], by simp [Token.endOfFile, Kind.char],
      by simp [Token.endOfFile]⟩, hskip⟩
  · rename_i c rest hs
    rw [hs] at hskip hcode
    obtain ⟨n, rfl⟩ := Int.eq_ofNat_of_zero_le (hcode c rfl)
    have hrest := hskip.tokenFrom (hcode _ rfl)
    rw [hr] at hrest
    exact ⟨tokenFrom_exact hr, hrest⟩
  · cases hr

/-- All tokens that are scanned are spelled as their kinds say. -/
theorem Unsigned.scan {r : Reader} (h : r.Unsigned) :
    ∀ t ∈ r.scan.1.tokens, t.Exact := by
  fun_induction Reader.scan r with
  | case1 r t rest hr ht => simp
  | case2 r t rest hr ht later last hl ih =>
    obtain ⟨hexact, hrest⟩ := h.next hr
    rw [List.forall_mem_cons]
    refine ⟨hexact, ?_⟩
    have := ih hrest
    rwa [hl] at this
  | case3 r f rest hr => simp

end Reader
end IntLang
