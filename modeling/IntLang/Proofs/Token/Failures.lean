import IntLang.Proofs.Token.Cut

/-! Readers of a stream that fails now and then. A failure ends the text before it almost as the end
of a file does, but a word or a numeral that reaches it is lost, as nothing has shown that it is
over. What comes behind the failure is read as a text of its own, on the lines of the whole
stream. -/
namespace IntLang

/-- What a call of `next` tells: its token, its failure, and the line on which the reader stands
after it. A call that failed has the zero token. -/
structure Reading where
  token : Token
  failure : Option Failure
  line : Int
  deriving DecidableEq, Repr

namespace Reading

def ofCall : Except Failure Token × Reader → Reading
  | (.ok t, r) => ⟨t, none, r.line⟩
  | (.error f, r) => ⟨.zero, some f, r.line⟩

def ofToken (t : Token) : Reading := ⟨t, none, t.line⟩

def ofFailure (f : Failure) (line : Int) : Reading := ⟨.zero, some f, line⟩

end Reading

namespace Reader

/-- What the call of `next` with a number tells, when it is called over and over. -/
def reading (r : Reader) : Nat → Reading
  | 0 => .ofCall r.next
  | i + 1 => r.next.2.reading i

/-- The items of some texts with a failure behind each of them, and of a last text. -/
def segmentItems (parts : List (Text × Failure)) (last : Text) : List Item :=
  parts.flatMap (fun part => items part.1 ++ [.failure part.2]) ++ items last

def segmentCharacters (parts : List (Text × Failure)) (last : Text) : List Char :=
  parts.flatMap (fun part => part.1.characters) ++ last.characters

def ofSegments (parts : List (Text × Failure)) (last : Text) : Reader :=
  ofStream (segmentItems parts last)

end Reader

def Token.down (n : Nat) (t : Token) : Token := { t with line := t.line + n }

/-- The tokens of a text when it is read alone, on the lines where they are behind another text. -/
def Text.tokensAfter (before : List Char) (t : Text) : List Token :=
  (Reader.ofText t).scan.1.tokens.map (Token.down (before.count '\n'))

/-- Those of the tokens of a text that are read when the text breaks off. A word or a numeral that
reaches the very end is not. -/
def complete (text : List Char) (ts : List Token) : List Token :=
  match ts.getLast? with
  | some t => if t.kind.isRun = true ∧ t.lexeme <:+ text.map .char then ts.dropLast else ts
  | none => []

/-- All that is told about these texts and failures, behind some other text. -/
def readings (before : List Char) : List (Text × Failure) → Text → List Reading
  | [], last => (last.tokensAfter before).map .ofToken
  | (t, f) :: parts, last =>
    (complete t.characters (t.tokensAfter before)).map .ofToken ++
      .ofFailure f (1 + (before ++ t.characters).count '\n') ::
        readings (before ++ t.characters) parts last

/-- A text behind more text is cut in the same way, on other lines. -/
theorem Cut.down {before text : List Char} {ts : List Token} (h : Cut before text ts)
    (first : List Char) : Cut (first ++ before) text (ts.map (Token.down (first.count '\n'))) := by
  induction h with
  | blanks blank => exact .blanks blank
  | @token before w u rest kind ts blank lexeme _ ih =>
    have hline : (1 + (before ++ w).count '\n' : Int) + first.count '\n' =
        1 + (first ++ before ++ w).count '\n' := by
      simp only [List.count_append]
      omega
    rw [List.map_cons, Token.down, hline]
    refine .token blank lexeme ?_
    simpa only [List.append_assoc] using ih

theorem Text.cut_tokensAfter (before : List Char) (t : Text) :
    Cut before t.characters (t.tokensAfter before) := by
  obtain ⟨ts, hts⟩ := exists_cut [] t.characters
  rw [tokensAfter, (Reader.at_text t).scan_cut hts]
  simpa only [List.append_nil] using hts.down before

theorem Cut.lexeme_length_le {before text : List Char} {ts : List Token} (h : Cut before text ts) :
    ∀ t ∈ ts, t.lexeme.length ≤ text.length := by
  induction h with
  | blanks => simp
  | token _ _ _ ih =>
    intro t ht
    rcases List.mem_cons.mp ht with rfl | ht
    · simp only [List.length_map, List.length_append]
      omega
    · have := ih t ht
      simp only [List.length_append]
      omega

theorem Cut.blank_of_nil {before text : List Char} (h : Cut before text []) :
    ∀ c ∈ text, Charset.blank c = true := by
  cases h with
  | blanks blank => exact blank

theorem Cut.eq_nil {before : List Char} {ts : List Token} (h : Cut before [] ts) : ts = [] :=
  List.eq_nil_of_length_eq_zero (Nat.le_zero.mp h.length_le)

/-- A run at the very end is all that is lost. -/
theorem complete_run {kind : Kind} (hk : kind.isRun = true) (w u : List Char) (line : Int) :
    complete (w ++ u) [⟨kind, u.map .char, line⟩] = [] := by
  simp [complete, hk]

/-- A token that is over stays, and what is lost after it is what the rest alone would lose. -/
theorem complete_cons {before w u rest : List Char} {kind : Kind} {ts : List Token} {line : Int}
    (hu : Lexeme rest.head? u kind) (ended : kind.isRun = true → rest ≠ [])
    (later : Cut before rest ts) :
    complete (w ++ u ++ rest) (⟨kind, u.map .char, line⟩ :: ts) =
      ⟨kind, u.map .char, line⟩ :: complete rest ts := by
  cases ts with
  | nil =>
    -- Only blanks follow, and no lexeme ends with one.
    have hopen : ¬ (kind.isRun = true ∧ u.map Glyph.char <:+ (w ++ u ++ rest).map .char) := by
      rintro ⟨hk, v, hv⟩
      have hne : u ≠ [] := by
        obtain ⟨c, v, rfl⟩ := hu.exists_cons
        exact List.cons_ne_nil c v
      have hlast := congrArg List.getLast? hv
      rw [List.map_append, List.getLast?_append, List.getLast?_append, List.getLast?_map,
        List.getLast?_map, List.getLast?_eq_some_getLast hne,
        List.getLast?_eq_some_getLast (ended hk)] at hlast
      have heq : u.getLast hne = rest.getLast (ended hk) := by simpa using hlast
      have hblank := later.blank_of_nil _ (List.getLast_mem (ended hk))
      rw [← heq, hu.not_blank _ (List.getLast_mem hne)] at hblank
      cases hblank
    simp only [complete, List.getLast?_singleton, if_neg hopen, List.getLast?_nil]
  | cons t ts =>
    obtain ⟨last, hlast⟩ : ∃ last, (t :: ts).getLast? = some last := ⟨_, List.getLast?_cons⟩
    have hle : last.lexeme.length ≤ (rest.map Glyph.char).length := by
      rw [List.length_map]
      exact later.lexeme_length_le last (List.mem_of_getLast? hlast)
    have hrest : rest.map Glyph.char <:+ (w ++ u ++ rest).map .char := by
      rw [List.map_append]
      exact List.suffix_append _ _
    have hsuffix : last.lexeme <:+ (w ++ u ++ rest).map .char ↔ last.lexeme <:+ rest.map .char :=
      ⟨fun h => List.suffix_of_suffix_length_le h hrest hle, fun h => h.trans hrest⟩
    rw [complete, complete, List.getLast?_cons_cons, hlast]
    simp only [hsuffix, List.dropLast_cons_cons]
    split <;> rfl

namespace Reader

/-- The calls of `next` tell these things one after another, and then one thing for ever. -/
def Tells (r : Reader) (told : List Reading) (always : Reading) : Prop :=
  ∀ i, r.reading i = told[i]?.getD always

theorem Tells.call {r r' : Reader} {result : Except Failure Token} {told : List Reading}
    {always : Reading} (hn : r.next = (result, r')) (h : r'.Tells told always) :
    r.Tells (.ofCall (result, r') :: told) always := by
  intro i
  cases i with
  | zero => simp [reading, hn]
  | succ i => simp [reading, hn, h i]

theorem Tells.token {r r' : Reader} {t : Token} {told : List Reading} {always : Reading}
    (hn : r.next = (.ok t, r')) (hline : r'.line = t.line) (h : r'.Tells told always) :
    r.Tells (.ofToken t :: told) always := by
  have := Tells.call hn h
  rwa [Reading.ofCall, hline] at this

theorem At.tells_endOfFile {r : Reader} {before w : List Char}
    (hw : ∀ c ∈ w, Charset.blank c = true) (h : r.At before w) :
    r.Tells [] (.ofToken (.endOfFile (1 + (before ++ w).count '\n'))) := by
  intro i
  induction i generalizing r before w with
  | zero =>
    obtain ⟨r', hn, h'⟩ := h.next_blanks hw
    simp [reading, hn, Reading.ofCall, Reading.ofToken, Token.endOfFile, h'.line]
  | succ i ih =>
    obtain ⟨r', hn, h'⟩ := h.next_blanks hw
    simpa [reading, hn] using ih (by simp) h'

theorem At.tells_cut {r : Reader} {before rest : List Char} {ts : List Token}
    (hc : Cut before rest ts) (h : r.At before rest) :
    r.Tells (ts.map .ofToken) (.ofToken (.endOfFile (1 + (before ++ rest).count '\n'))) := by
  induction hc generalizing r with
  | blanks blank => exact h.tells_endOfFile blank
  | token blank lexeme _ ih =>
    obtain ⟨r', hn, h'⟩ := h.next_lexeme blank lexeme
    have hline := h'.line
    rw [lexeme.count_append] at hline
    simpa only [List.map_cons, List.append_assoc] using Tells.token hn hline (ih h')

namespace Facing

variable {r : Reader} {before rest : List Char} {f : Failure} {tail : List Item}

theorem of_items {t : Text} (h : r.Facing before [] (items t ++ tail)) :
    r.Facing before t.characters tail := by
  refine ⟨?_, h.unbroken, h.line⟩
  rw [h.input, items_characters t]
  rfl

theorem read_failure (h : r.Facing before [] (.failure f :: tail)) :
    ∃ r', r.read = (.error f, r') ∧ r'.Facing before [] tail := by
  obtain ⟨pushed, stream, breaks, line⟩ := r
  cases pushed with
  | cons p pushed => cases h.input
  | nil =>
    have hstream : stream = .failure f :: tail := h.input
    subst hstream
    exact ⟨_, rfl, rfl, h.unbroken, h.line⟩

theorem next_blanks_failure {w : List Char} (hw : ∀ c ∈ w, Charset.blank c = true)
    (h : r.Facing before w (.failure f :: tail)) :
    ∃ r', r.next = (.error f, r') ∧ r'.Facing (before ++ w) [] tail := by
  rw [← List.append_nil w] at h
  obtain ⟨r₁, hs, h₁⟩ := h.skipBlanks_blanks hw
  obtain ⟨r', hr, h'⟩ := h₁.read_failure
  refine ⟨r', ?_, h'⟩
  rw [next, hs, skipBlanks_of_read_failure hr]

/-- A run that reaches a failure is lost. -/
theorem next_run_failure {w u : List Char} {next : Option Char} {kind : Kind}
    (hw : ∀ c ∈ w, Charset.blank c = true) (hu : Lexeme next u kind) (hk : kind.isRun = true)
    (h : r.Facing before (w ++ u) (.failure f :: tail)) :
    ∃ r', r.next = (.error f, r') ∧ r'.Facing (before ++ w ++ u) [] tail := by
  rw [← List.append_nil (w ++ u)] at h
  obtain ⟨cls, kindOf, hrun, r₁, hnext, h₁⟩ := h.next_run hw hu hk
  obtain ⟨r₂, h₂, htake⟩ := h₁.takeRun_append hrun.parts
  obtain ⟨r', hread, h'⟩ := h₂.read_failure
  refine ⟨r', ?_, h'⟩
  rw [hnext, Reader.runToken, htake, takeRun_of_read_failure hread]

/-- All that is told up to a failure, for a text that is cut in this way. -/
theorem tells_failure {ts : List Token} {told : List Reading} {always : Reading}
    (hc : Cut before rest ts) (h : r.Facing before rest (.failure f :: tail))
    (later : ∀ r' : Reader, r'.Facing (before ++ rest) [] tail → r'.Tells told always) :
    r.Tells ((complete rest ts).map .ofToken ++
      .ofFailure f (1 + (before ++ rest).count '\n') :: told) always := by
  induction hc generalizing r with
  | blanks blank =>
    obtain ⟨r', hn, h'⟩ := h.next_blanks_failure blank
    have := Tells.call hn (later r' h')
    rwa [Reading.ofCall, h'.line] at this
  | @token before w u rest kind ts blank lexeme hts ih =>
    by_cases hend : kind.isRun = true ∧ rest = []
    · obtain ⟨hk, rfl⟩ := hend
      obtain rfl := hts.eq_nil
      rw [List.append_nil] at h later ⊢
      obtain ⟨r', hn, h'⟩ := h.next_run_failure blank lexeme hk
      rw [List.append_assoc] at h'
      have := Tells.call hn (later r' h')
      rw [Reading.ofCall, h'.line] at this
      rwa [complete_run hk]
    · have ended : kind.isRun = true → rest ≠ [] := fun hk hr => hend ⟨hk, hr⟩
      obtain ⟨r', hn, h'⟩ := h.next_lexeme blank lexeme ended
      have hline := h'.line
      rw [lexeme.count_append] at hline
      have hrest := ih h' (by simpa only [List.append_assoc] using later)
      rw [complete_cons lexeme ended hts, List.map_cons, List.cons_append]
      simpa only [List.append_assoc] using Tells.token hn hline hrest

theorem tells_segments {parts : List (Text × Failure)} {last : Text}
    (h : r.Facing before [] (segmentItems parts last)) :
    r.Tells (readings before parts last) (.ofToken (.endOfFile
      (1 + (before ++ segmentCharacters parts last).count '\n'))) := by
  induction parts generalizing r before with
  | nil =>
    have hat : r.At before last.characters := by
      refine ⟨0, of_items ?_⟩
      simpa [segmentItems] using h
    exact hat.tells_cut (last.cut_tokensAfter before)
  | cons part parts ih =>
    obtain ⟨t, f⟩ := part
    have hfirst : r.Facing before t.characters (.failure f :: segmentItems parts last) := by
      refine of_items ?_
      simpa [segmentItems] using h
    have := hfirst.tells_failure (t.cut_tokensAfter before) fun r' h' => ih h'
    simpa only [readings, segmentCharacters, List.flatMap_cons, List.append_assoc] using this

end Facing

/-- Failures cut a stream of characters into texts. Over and over, `next` tells the tokens of each
text when it is read alone, without a word or a numeral that reaches the failure, then the failure
itself, and in the end the tokens of the last text and the end of file for ever. The tokens of a
text are a cut of it behind all earlier text, so they are on the lines of the whole stream. -/
theorem reading_ofSegments (parts : List (Text × Failure)) (last : Text) :
    (∀ i, (ofSegments parts last).reading i = (readings [] parts last)[i]?.getD
      (.ofToken (.endOfFile (1 + (segmentCharacters parts last).count '\n')))) ∧
    ∀ (before : List Char) (t : Text), Cut before t.characters (t.tokensAfter before) := by
  have hstart : (ofSegments parts last).Facing [] [] (segmentItems parts last) := ⟨rfl, rfl, rfl⟩
  exact ⟨hstart.tells_segments, fun before t => t.cut_tokensAfter before⟩

end Reader
end IntLang
