import IntLang.Charset.Class
import IntLang.Token.Basic
import IntLang.Token.Blank
import IntLang.Token.Reader

/-! Tokens from a reader. Numerals and words are the longest runs of their class; the code that
ends a run is given back. -/
namespace IntLang
namespace Reader

/-- The first code that is not blank. -/
def skipBlanks (r : Reader) : Except Failure Point × Reader :=
  match _h : r.read with
  | (.ok (.code c), rest) => if Charset.isBlank c then skipBlanks rest else (.ok (.code c), rest)
  | (.ok .endOfFile, rest) => (.ok .endOfFile, rest)
  | (.error f, rest) => (.error f, rest)
termination_by r.pending
decreasing_by exact pending_read_lt _h

/-- The longest run of codes in a class. A failure loses the run. -/
def takeRun (cls : Int → Bool) (r : Reader) : Except Failure Text × Reader :=
  match _h : r.read with
  | (.ok (.code c), rest) =>
    if cls c then
      match takeRun cls rest with
      | (.ok run, rest) => (.ok (Glyph.ofCode c :: run), rest)
      | (.error f, rest) => (.error f, rest)
    else (.ok [], rest.unread (.code c))
  | (.ok .endOfFile, rest) => (.ok [], rest.unread .endOfFile)
  | (.error f, rest) => (.error f, rest)
termination_by r.pending
decreasing_by exact pending_read_lt _h

/-- A token that ends where the reader stands. -/
def token (r : Reader) (kind : Kind) (lexeme : Text) : Token := ⟨kind, lexeme, r.line⟩

/-- A run of a class as one token. -/
def runToken (cls : Int → Bool) (kind : Text → Kind) (r : Reader) :
    Except Failure Token × Reader :=
  match r.takeRun cls with
  | (.ok run, rest) => (.ok (rest.token (kind run) run), rest)
  | (.error f, rest) => (.error f, rest)

/-- The token that starts with a code just read, which is not blank. -/
def tokenFrom (r : Reader) (c : Int) : Except Failure Token × Reader :=
  if Charset.isDigit c then (r.unread (.code c)).runToken Charset.isDigit fun _ => .intLiteral
  else if Charset.isWordStart c then (r.unread (.code c)).runToken Charset.isWordPart Kind.ofWord
  else (.ok (r.token (Kind.ofCode c) [Glyph.ofCode c]), r)

/-- The next token. At the end of file this is an end-of-file token, each time. -/
def next (r : Reader) : Except Failure Token × Reader :=
  match r.skipBlanks with
  | (.ok .endOfFile, rest) => (.ok (.endOfFile rest.line), rest)
  | (.ok (.code c), rest) => rest.tokenFrom c
  | (.error f, rest) => (.error f, rest)

theorem pending_skipBlanks_lt {r r' : Reader} {c : Int}
    (h : r.skipBlanks = (.ok (.code c), r')) : r'.pending < r.pending := by
  fun_induction skipBlanks r with
  | case1 r c rest hr _ ih => exact Nat.lt_trans (ih h) (pending_read_lt hr)
  | case2 r c rest hr _ =>
    cases h
    exact pending_read_lt hr
  | case3 => simp at h
  | case4 => simp at h

theorem pending_takeRun_le (cls : Int → Bool) (r : Reader) :
    (r.takeRun cls).2.pending ≤ r.pending := by
  fun_induction takeRun cls r with
  | case1 r c rest hr _ run rest' h ih =>
    have := pending_read_lt hr
    simp only [h] at ih
    simp only
    omega
  | case2 r c rest hr _ f rest' h ih =>
    have := pending_read_lt hr
    simp only [h] at ih
    simp only
    omega
  | case3 r c rest hr _ =>
    have := pending_read_lt hr
    simp only [pending_unread_code]
    omega
  | case4 r rest hr =>
    have := pending_read_le r
    simp only [hr] at this
    simpa using this
  | case5 r f rest hr =>
    have := pending_read_le r
    simpa only [hr] using this

/-- A run that starts with a code of its class uses that code up. -/
theorem pending_takeRun_unread_le {cls : Int → Bool} {c : Int} (hc : cls c = true) (r : Reader) :
    ((r.unread (.code c)).takeRun cls).2.pending ≤ r.pending := by
  have := pending_takeRun_le cls r
  rw [takeRun]
  split
  · rename_i hr
    simp only [read_unread, Prod.mk.injEq, Except.ok.injEq, Point.code.injEq] at hr
    obtain ⟨rfl, rfl⟩ := hr
    simp only [hc, if_true]
    split <;> simp_all
  · simp_all
  · simp_all

theorem pending_tokenFrom_le (r : Reader) (c : Int) : (r.tokenFrom c).2.pending ≤ r.pending := by
  have run (cls : Int → Bool) (kind : Text → Kind) (hc : cls c = true) :
      ((r.unread (.code c)).runToken cls kind).2.pending ≤ r.pending := by
    have := pending_takeRun_unread_le hc r
    unfold runToken
    split <;> simp_all
  unfold tokenFrom
  split
  · exact run _ _ (by assumption)
  split
  · exact run _ _ (by simp_all [Charset.isWordPart])
  · exact Nat.le_refl _

/-- Every token but that of the end of file uses up some input. -/
theorem pending_next_lt {r r' : Reader} {t : Token} (h : r.next = (.ok t, r'))
    (ht : t.kind ≠ .endOfFile) : r'.pending < r.pending := by
  unfold next at h
  split at h
  · cases h
    simp [Token.endOfFile] at ht
  · rename_i c rest hs
    have := pending_skipBlanks_lt hs
    have := pending_tokenFrom_le rest c
    simp only [h] at this
    omega
  · simp at h

end Reader

/-- How the tokens of a stream end. -/
inductive TokenStop where
  | endOfFile (line : Int)
  | failure (f : Failure)
  deriving DecidableEq, Repr

/-- The tokens that can be read one after another, and what comes then: end-of-file tokens for
ever, or a read failure. -/
structure TokenStream where
  tokens : List Token
  stop : TokenStop
  deriving DecidableEq, Repr

namespace Reader

/-- All tokens up to the end of file or the first failure, and the reader after them. -/
def scan (r : Reader) : TokenStream × Reader :=
  match _h : r.next with
  | (.ok t, rest) =>
    if _ht : t.kind = .endOfFile then (⟨[], .endOfFile t.line⟩, rest)
    else
      let (later, last) := scan rest
      (⟨t :: later.tokens, later.stop⟩, last)
  | (.error f, rest) => (⟨[], .failure f⟩, rest)
termination_by r.pending
decreasing_by exact pending_next_lt _h _ht

end Reader
end IntLang
