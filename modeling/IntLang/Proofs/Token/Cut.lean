import IntLang.Proofs.Charset.Classes
import IntLang.Token.Scan

/-! A text is cut into tokens in exactly one way: blanks lie between the lexemes, each lexeme is
as long as its class allows, and nothing is lost. The reader makes this cut, and after the last
token it gives the end of file for ever. -/
namespace IntLang

/-- What a reader sees of a text: a stray byte reads as the replacement character. -/
def Text.characters (t : Text) : List Char :=
  t.map fun
    | .char c => c
    | .stray _ => Glyph.replacement

/-- A word that spells a keyword is that keyword; any other is an identifier. -/
inductive WordKind (u : Text) : Kind → Prop
  | keyword {k : Keyword} (h : u = k.spelling) : WordKind u (.keyword k)
  | identifier (h : ∀ k : Keyword, u ≠ k.spelling) : WordKind u .identifier

/-- A lexeme of a kind, with the character after it, if there is one. -/
inductive Lexeme (next : Option Char) : List Char → Kind → Prop
  | int {u : List Char} (nonempty : u ≠ []) (digits : ∀ c ∈ u, c.isDigit = true)
      (ends : ∀ c ∈ next, c.isDigit = false) : Lexeme next u .intLiteral
  | word {c : Char} {u : List Char} {kind : Kind} (start : Charset.wordStart c = true)
      (parts : ∀ d ∈ c :: u, Charset.wordPart d = true)
      (ends : ∀ d ∈ next, Charset.wordPart d = false)
      (spelled : WordKind ((c :: u).map .char) kind) : Lexeme next (c :: u) kind
  | single {c : Char} (notBlank : Charset.blank c = false) (notDigit : c.isDigit = false)
      (notStart : Charset.wordStart c = false) : Lexeme next [c] (.single c.toNat)

/-- A text after some other text is cut into tokens. The line of a token is that of its first
character. -/
inductive Cut : (before text : List Char) → List Token → Prop
  | blanks {before w : List Char} (blank : ∀ c ∈ w, Charset.blank c = true) : Cut before w []
  | token {before w u rest : List Char} {kind : Kind} {ts : List Token}
      (blank : ∀ c ∈ w, Charset.blank c = true) (lexeme : Lexeme rest.head? u kind)
      (later : Cut (before ++ w ++ u) rest ts) :
      Cut before (w ++ u ++ rest) (⟨kind, u.map .char, 1 + (before ++ w).count '\n'⟩ :: ts)

theorem Lexeme.exists_cons {next : Option Char} {u : List Char} {kind : Kind}
    (h : Lexeme next u kind) : ∃ c v, u = c :: v := by
  cases h with
  | int nonempty _ _ => exact List.exists_cons_of_ne_nil nonempty
  | word => exact ⟨_, _, rfl⟩
  | single => exact ⟨_, _, rfl⟩

theorem Lexeme.kind_ne_endOfFile {next : Option Char} {u : List Char} {kind : Kind}
    (h : Lexeme next u kind) : kind ≠ .endOfFile := by
  cases h with
  | int => simp
  | word _ _ _ spelled => cases spelled <;> simp
  | single => simp

theorem Lexeme.not_blank {next : Option Char} {u : List Char} {kind : Kind}
    (h : Lexeme next u kind) : ∀ c ∈ u, Charset.blank c = false := by
  intro c hc
  cases h with
  | int _ digits _ => exact Charset.not_blank_of_digit (digits c hc)
  | word _ parts _ _ =>
    cases hb : Charset.blank c with
    | false => rfl
    | true =>
      have := Charset.not_wordPart_of_blank hb
      rw [parts c hc] at this
      cases this
  | single notBlank _ _ =>
    cases List.mem_singleton.mp hc
    exact notBlank

/-- A lexeme ends on the line on which it starts. -/
theorem Lexeme.count_append {next : Option Char} {u : List Char} {kind : Kind}
    (h : Lexeme next u kind) (before : List Char) :
    (before ++ u).count '\n' = before.count '\n' := by
  have hcount : u.count '\n' = 0 := by
    rw [List.count_eq_zero]
    intro hm
    cases Charset.blank_newline.symm.trans (h.not_blank _ hm)
  rw [List.count_append, hcount, Nat.add_zero]

/-- The kinds of numerals and words. They are runs: only what follows shows that they are over. -/
def Kind.isRun : Kind → Bool
  | .intLiteral | .identifier | .keyword _ => true
  | _ => false

/-- Every lexeme takes at least one character. -/
theorem Cut.length_le {before text : List Char} {ts : List Token} (h : Cut before text ts) :
    ts.length ≤ text.length := by
  induction h with
  | blanks => simp
  | token _ lexeme _ ih =>
    obtain ⟨c, v, rfl⟩ := lexeme.exists_cons
    simp only [List.length_cons, List.length_append]
    omega

theorem Cut.kind_ne_endOfFile {before text : List Char} {ts : List Token} (h : Cut before text ts) :
    ∀ t ∈ ts, t.kind ≠ .endOfFile := by
  induction h with
  | blanks => simp
  | token _ lexeme _ ih =>
    intro t ht
    rcases List.mem_cons.mp ht with rfl | ht
    · exact lexeme.kind_ne_endOfFile
    · exact ih t ht

theorem wordKind_iff {u : Text} {kind : Kind} : WordKind u kind ↔ kind = Kind.ofWord u := by
  have find (k : Keyword) : Keyword.ofSpelling? k.spelling = some k := by
    cases k <;> rfl
  constructor
  · intro h
    cases h with
    | keyword h => rw [h, Kind.ofWord, find]
    | identifier h =>
      have : Keyword.ofSpelling? u = none := by
        simp only [Keyword.ofSpelling?, List.find?_eq_none, decide_eq_true_eq]
        exact fun k _ hk => h k hk.symm
      rw [Kind.ofWord, this]
  · rintro rfl
    unfold Kind.ofWord
    split
    · rename_i k hk
      have := List.find?_some hk
      exact .keyword (by simpa [eq_comm] using this)
    · rename_i hk
      refine .identifier fun k hu => ?_
      rw [hu, find] at hk
      cases hk

/-- What is before the first character that is not in a class, and the rest. -/
theorem exists_span (p : Char → Bool) (text : List Char) : ∃ u rest, text = u ++ rest ∧
    (∀ c ∈ u, p c = true) ∧ ∀ c ∈ rest.head?, p c = false := by
  refine ⟨text.takeWhile p, text.dropWhile p, List.takeWhile_append_dropWhile.symm, ?_, ?_⟩
  · intro c hc
    exact List.all_eq_true.mp List.all_takeWhile c hc
  · intro c hc
    have := List.head?_dropWhile_not p text
    rw [hc] at this
    simpa using this

/-- A text that does not start with a blank starts with a lexeme. -/
theorem exists_lexeme {c : Char} {text : List Char} (hc : Charset.blank c = false) :
    ∃ u rest kind, c :: text = u ++ rest ∧ Lexeme rest.head? u kind := by
  by_cases hd : c.isDigit = true
  · obtain ⟨u, rest, rfl, hu, hr⟩ := exists_span Char.isDigit text
    refine ⟨c :: u, rest, .intLiteral, rfl, .int (by simp) ?_ hr⟩
    intro d hm
    rcases List.mem_cons.mp hm with rfl | hm
    · exact hd
    · exact hu d hm
  by_cases hs : Charset.wordStart c = true
  · obtain ⟨u, rest, rfl, hu, hr⟩ := exists_span Charset.wordPart text
    refine ⟨c :: u, rest, Kind.ofWord _, rfl, .word hs ?_ hr (wordKind_iff.mpr rfl)⟩
    intro d hm
    rcases List.mem_cons.mp hm with rfl | hm
    · exact Charset.wordPart_of_wordStart hs
    · exact hu d hm
  · exact ⟨[c], text, _, rfl, .single hc (by simpa using hd) (by simpa using hs)⟩

/-- Every text can be cut. -/
theorem exists_cut (before text : List Char) : ∃ ts, Cut before text ts := by
  obtain ⟨w, text', ht, hw, hr⟩ := exists_span Charset.blank text
  cases text' with
  | nil =>
    rw [ht, List.append_nil]
    exact ⟨[], .blanks hw⟩
  | cons c text' =>
    obtain ⟨u, rest, kind, he, hu⟩ := exists_lexeme (hr c rfl)
    obtain ⟨d, v, rfl⟩ := hu.exists_cons
    obtain ⟨ts, hts⟩ := exists_cut (before ++ w ++ (d :: v)) rest
    rw [ht, he, ← List.append_assoc]
    exact ⟨_, .token hw hu hts⟩
termination_by text.length
decreasing_by
  rw [ht, he]
  simp only [List.length_cons, List.length_append]
  omega

/-- The kind of the lexeme that some characters are before the next one, if they are one. -/
def lexemeKind? (next : Option Char) : List Char → Option Kind
  | [] => none
  | c :: u =>
    if (c :: u).all Char.isDigit && next.all (!·.isDigit) then some .intLiteral
    else if Charset.wordStart c && (c :: u).all Charset.wordPart &&
        next.all (!Charset.wordPart ·) then
      some (Kind.ofWord ((c :: u).map .char))
    else if u.isEmpty && !(Charset.blank c || c.isDigit || Charset.wordStart c) then
      some (.single c.toNat)
    else none

theorem Lexeme.of_kind? {next : Option Char} {u : List Char} {kind : Kind}
    (h : lexemeKind? next u = some kind) : Lexeme next u kind := by
  have ends {p : Char → Bool} (h : next.all (!p ·) = true) : ∀ c ∈ next, p c = false := by
    rintro c ⟨⟩
    simpa using h
  cases u with
  | nil => cases h
  | cons c u =>
    rw [lexemeKind?] at h
    split at h
    · rename_i hint
      rw [Bool.and_eq_true, List.all_eq_true] at hint
      cases h
      exact .int (List.cons_ne_nil c u) hint.1 (ends hint.2)
    · split at h
      · rename_i hword
        rw [Bool.and_eq_true, Bool.and_eq_true, List.all_eq_true] at hword
        cases h
        exact .word hword.1.1 hword.1.2 (ends hword.2) (wordKind_iff.mpr rfl)
      · split at h
        · rename_i hsingle
          simp only [Bool.and_eq_true, List.isEmpty_iff, Bool.not_eq_true', Bool.or_eq_false_iff]
            at hsingle
          obtain ⟨rfl, ⟨notBlank, notDigit⟩, notStart⟩ := hsingle
          cases h
          exact .single notBlank notDigit notStart
        · cases h

/-- The text of some lexemes, each with the blanks before it. -/
def piecesText : List (List Char × List Char) → List Char
  | [] => []
  | (w, u) :: ps => w ++ u ++ piecesText ps

/-- The tokens of a text that is given in pieces, if every piece is blanks and then a lexeme. -/
def pieceTokens? (before : List Char) : List (List Char × List Char) → Option (List Token)
  | [] => some []
  | (w, u) :: ps =>
    if w.all Charset.blank then
      (lexemeKind? (piecesText ps).head? u).bind fun kind =>
        (pieceTokens? (before ++ w ++ u) ps).map fun ts =>
          ⟨kind, u.map .char, 1 + (before ++ w).count '\n'⟩ :: ts
    else none

/-- Where a text falls into pieces, the cut can be computed. -/
theorem Cut.of_pieces (ps : List (List Char × List Char)) {before : List Char} {ts : List Token}
    (h : pieceTokens? before ps = some ts) : Cut before (piecesText ps) ts := by
  induction ps generalizing before ts with
  | nil =>
    cases h
    exact .blanks nofun
  | cons p ps ih =>
    obtain ⟨w, u⟩ := p
    rw [pieceTokens?] at h
    split at h
    · rename_i hblank
      obtain ⟨kind, hkind, h⟩ := Option.bind_eq_some_iff.mp h
      obtain ⟨us, hus, rfl⟩ := Option.map_eq_some_iff.mp h
      exact .token (List.all_eq_true.mp hblank) (.of_kind? hkind) (ih hus)
    · cases h

theorem Kind.ofCode_natCast (n : Nat) : Kind.ofCode n = .single n := by
  have hk : Keyword.all.find? (fun k => k.code = (n : Int)) = none := by
    simp only [List.find?_eq_none, decide_eq_true_eq]
    intro k _
    cases k <;> simp only [Keyword.code] <;> omega
  rw [Kind.ofCode, if_neg (by omega), if_neg (by omega), if_neg (by omega), hk]

namespace Reader

/-- The reader stands between two parts of a text, and these items come behind the text. -/
structure Facing (r : Reader) (before rest : List Char) (tail : List Item) : Prop where
  input : r.pushed.map .point ++ r.stream = items (rest.map .char) ++ tail
  unbroken : r.breaks = none
  line : r.line = 1 + (before.count '\n' : Int)

/-- The reader stands between two parts of a text. Ends of file that were given back may lie
behind the text. -/
def At (r : Reader) (before rest : List Char) : Prop :=
  ∃ k, r.Facing before rest (List.replicate k (.point .endOfFile))

theorem At.line {r : Reader} {before rest : List Char} (h : r.At before rest) :
    r.line = 1 + (before.count '\n' : Int) := by
  obtain ⟨k, hf⟩ := h
  exact hf.line

theorem items_cons (c : Char) (rest : List Char) :
    items ((c :: rest).map .char) = .point (.code c.toNat) :: items (rest.map .char) := rfl

theorem at_ofText (text : List Char) : At (ofText (text.map .char)) [] text :=
  ⟨0, by simp [ofText, ofStream], rfl, rfl⟩

theorem newlines_char (c : Char) : (Point.code c.toNat).newlines = [c].count '\n' := by
  by_cases hc : c = '\n'
  · subst hc
    rfl
  · have hn : c.toNat ≠ 10 := fun h => hc (Char.toNat_inj.mp h)
    have hp : Point.code c.toNat ≠ .newline := by
      simp only [Point.newline, ne_eq, Point.code.injEq]
      omega
    simp [Point.newlines, hp, hc]

/-- It makes no difference whether the next point was given back or comes from the stream. -/
theorem read_of_input {r : Reader} {p : Point} {tail : List Item}
    (h : r.pushed.map .point ++ r.stream = .point p :: tail) :
    ∃ r', r.read = (.ok p, r') ∧ r'.pushed.map .point ++ r'.stream = tail ∧
      r'.breaks = r.breaks ∧ r'.line = r.line + p.newlines := by
  obtain ⟨pushed, stream, breaks, line⟩ := r
  cases pushed with
  | cons q pushed =>
    simp only [List.map_cons, List.cons_append, List.cons.injEq, Item.point.injEq] at h
    obtain ⟨rfl, h⟩ := h
    exact ⟨_, rfl, h, rfl, rfl⟩
  | nil =>
    simp only [List.map_nil, List.nil_append] at h
    subst h
    exact ⟨_, rfl, rfl, rfl, rfl⟩

namespace Facing

variable {r : Reader} {before rest : List Char} {tail : List Item}

theorem read_cons {c : Char} (h : r.Facing before (c :: rest) tail) :
    ∃ r', r.read = (.ok (.code c.toNat), r') ∧ r'.Facing (before ++ [c]) rest tail := by
  have hinput := h.input
  rw [items_cons, List.cons_append] at hinput
  obtain ⟨r', hr, hin, hb, hl⟩ := read_of_input hinput
  refine ⟨r', hr, hin, hb.trans h.unbroken, ?_⟩
  rw [hl, h.line, newlines_char, List.count_append]
  omega

theorem unread_char {c : Char} (h : r.Facing (before ++ [c]) rest tail) :
    (r.unread (.code c.toNat)).Facing before (c :: rest) tail := by
  refine ⟨?_, h.unbroken, ?_⟩
  · rw [items_cons]
    simp only [unread, List.map_cons, List.cons_append, h.input]
  · simp only [unread, h.line, newlines_char, List.count_append]
    omega

end Facing

namespace At

variable {r : Reader} {before : List Char}

theorem read_nil (h : r.At before []) :
    ∃ r', r.read = (.ok .endOfFile, r') ∧ r'.At before [] := by
  obtain ⟨k, hf⟩ := h
  have hinput : r.pushed.map .point ++ r.stream = List.replicate k (.point .endOfFile) := hf.input
  cases k with
  | zero =>
    obtain ⟨hp, hs⟩ := List.append_eq_nil_iff.mp hinput
    refine ⟨r, ?_, 0, hf⟩
    simp only [read, List.map_eq_nil_iff.mp hp, hs, hf.unbroken]
  | succ k =>
    obtain ⟨r', hr, hin, hb, hl⟩ := read_of_input hinput
    refine ⟨r', hr, k, hin, hb.trans hf.unbroken, ?_⟩
    rw [hl, hf.line]
    exact Int.add_zero _

theorem unread_endOfFile (h : r.At before []) : (r.unread .endOfFile).At before [] := by
  obtain ⟨k, hk, hb, hl⟩ := h
  refine ⟨k + 1, ?_, hb, ?_⟩
  · simp only [unread, List.map_cons, List.cons_append, hk, items, List.map_nil, List.nil_append,
      List.replicate_succ]
  · simp [unread, hl, Point.newlines, Point.newline]

end At

theorem skipBlanks_of_read_code {r r' : Reader} {c : Int} (h : r.read = (.ok (.code c), r')) :
    r.skipBlanks = if Charset.isBlank c then r'.skipBlanks else (.ok (.code c), r') := by
  rw [skipBlanks]
  split <;> simp_all

theorem skipBlanks_of_read_endOfFile {r r' : Reader} (h : r.read = (.ok .endOfFile, r')) :
    r.skipBlanks = (.ok .endOfFile, r') := by
  rw [skipBlanks]
  split <;> simp_all

theorem skipBlanks_of_read_failure {r r' : Reader} {f : Failure} (h : r.read = (.error f, r')) :
    r.skipBlanks = (.error f, r') := by
  rw [skipBlanks]
  split <;> simp_all

theorem takeRun_of_read_code {r r' : Reader} {c : Int} {cls : Int → Bool}
    (h : r.read = (.ok (.code c), r')) : r.takeRun cls =
      if cls c then
        match r'.takeRun cls with
        | (.ok run, rest) => (.ok (Glyph.ofCode c :: run), rest)
        | (.error f, rest) => (.error f, rest)
      else (.ok [], r'.unread (.code c)) := by
  rw [takeRun]
  split
  · rename_i hr
    rw [h] at hr
    cases hr
    rfl
  · simp_all
  · simp_all

theorem takeRun_of_read_endOfFile {r r' : Reader} {cls : Int → Bool}
    (h : r.read = (.ok .endOfFile, r')) : r.takeRun cls = (.ok [], r'.unread .endOfFile) := by
  rw [takeRun]
  split <;> simp_all

theorem takeRun_of_read_failure {r r' : Reader} {f : Failure} {cls : Int → Bool}
    (h : r.read = (.error f, r')) : r.takeRun cls = (.error f, r') := by
  rw [takeRun]
  split <;> simp_all

theorem ofCode_toNat (c : Char) : Glyph.ofCode c.toNat = .char c := by
  have hv : c.toNat.isValidChar := c.valid
  simp [Glyph.ofCode, hv, Char.ofNat_toNat]

/-- The lexeme is a run of a class, up to the character after it. -/
structure RunOf (cls : Int → Bool) (kindOf : Text → Kind) (next : Option Char) (u : List Char)
    (kind : Kind) : Prop where
  parts : ∀ c ∈ u, cls c.toNat = true
  ends : ∀ c ∈ next, cls c.toNat = false
  kind_eq : kindOf (u.map .char) = kind

theorem RunOf.int {next : Option Char} {u : List Char} (digits : ∀ c ∈ u, c.isDigit = true)
    (ends : ∀ c ∈ next, c.isDigit = false) :
    RunOf Charset.isDigit (fun _ => .intLiteral) next u .intLiteral where
  parts c hc := by rw [Charset.isDigit_toNat, digits c hc]
  ends c hc := by rw [Charset.isDigit_toNat, ends c hc]
  kind_eq := rfl

theorem RunOf.word {next : Option Char} {u : List Char} {kind : Kind}
    (parts : ∀ c ∈ u, Charset.wordPart c = true) (ends : ∀ c ∈ next, Charset.wordPart c = false)
    (spelled : WordKind (u.map .char) kind) :
    RunOf Charset.isWordPart Kind.ofWord next u kind where
  parts := parts
  ends := ends
  kind_eq := (wordKind_iff.mp spelled).symm

/-- A run is a token of the line it starts on. -/
theorem RunOf.runToken {cls : Int → Bool} {kindOf : Text → Kind} {next : Option Char}
    {u before : List Char} {kind : Kind} (h : RunOf cls kindOf next u kind)
    (hu : Lexeme next u kind) {r r' : Reader} (hrun : r.takeRun cls = (.ok (u.map .char), r'))
    (hline : r'.line = 1 + ((before ++ u).count '\n' : Int)) :
    r.runToken cls kindOf = (.ok ⟨kind, u.map .char, 1 + before.count '\n'⟩, r') := by
  rw [hu.count_append] at hline
  simp only [Reader.runToken, hrun, Reader.token, hline, h.kind_eq]

namespace Facing

variable {r : Reader} {before rest : List Char} {tail : List Item}

theorem skipBlanks_blanks {w : List Char} (hw : ∀ c ∈ w, Charset.blank c = true)
    (h : r.Facing before (w ++ rest) tail) :
    ∃ r' : Reader, r.skipBlanks = r'.skipBlanks ∧ r'.Facing (before ++ w) rest tail := by
  induction w generalizing r before with
  | nil => exact ⟨r, rfl, by simpa using h⟩
  | cons c w ih =>
    obtain ⟨r₁, hr, h₁⟩ := h.read_cons
    obtain ⟨r', hs, h'⟩ := ih (fun d hd => hw d (by simp [hd])) h₁
    have hc : Charset.isBlank c.toNat = true := hw c (by simp)
    refine ⟨r', ?_, by simpa using h'⟩
    rw [skipBlanks_of_read_code hr, if_pos hc, hs]

/-- A run goes through all characters of its class, and what it finds behind them decides. -/
theorem takeRun_append {cls : Int → Bool} {u : List Char} (hu : ∀ c ∈ u, cls c.toNat = true)
    (h : r.Facing before (u ++ rest) tail) :
    ∃ r₁ : Reader, r₁.Facing (before ++ u) rest tail ∧ r.takeRun cls =
      match r₁.takeRun cls with
      | (.ok run, r') => (.ok (u.map .char ++ run), r')
      | (.error f, r') => (.error f, r') := by
  induction u generalizing r before with
  | nil =>
    refine ⟨r, by simpa using h, ?_⟩
    split <;> assumption
  | cons c u ih =>
    obtain ⟨r₁, hr, h₁⟩ := h.read_cons
    obtain ⟨r₂, h₂, hrun⟩ := ih (fun d hd => hu d (by simp [hd])) h₁
    refine ⟨r₂, by simpa using h₂, ?_⟩
    rw [takeRun_of_read_code hr, if_pos (hu c (by simp)), hrun, ofCode_toNat]
    cases r₂.takeRun cls with
    | mk result r' => cases result <;> rfl

/-- A character that is no blank is the first one of the next token. -/
theorem next_tokenFrom {w : List Char} {c : Char} (hw : ∀ c ∈ w, Charset.blank c = true)
    (hc : Charset.blank c = false) (h : r.Facing before (w ++ c :: rest) tail) :
    ∃ r' : Reader, r.next = r'.tokenFrom c.toNat ∧ r'.Facing (before ++ w ++ [c]) rest tail := by
  obtain ⟨r₁, hs, h₁⟩ := h.skipBlanks_blanks hw
  obtain ⟨r', hr, h'⟩ := h₁.read_cons
  have hc' : ¬ Charset.isBlank c.toNat = true := by simpa [Charset.blank] using hc
  refine ⟨r', ?_, h'⟩
  rw [next, hs, skipBlanks_of_read_code hr, if_neg hc']

/-- A single character is a token, whatever follows it. -/
theorem next_single {w : List Char} {c : Char} (hw : ∀ c ∈ w, Charset.blank c = true)
    (notBlank : Charset.blank c = false) (notDigit : c.isDigit = false)
    (notStart : Charset.wordStart c = false) (h : r.Facing before (w ++ [c] ++ rest) tail) :
    ∃ r', r.next = (.ok ⟨.single c.toNat, [.char c], 1 + (before ++ w).count '\n'⟩, r') ∧
      r'.Facing (before ++ w ++ [c]) rest tail := by
  rw [List.append_assoc] at h
  obtain ⟨r', hnext, h'⟩ := h.next_tokenFrom hw notBlank
  have hd : ¬ Charset.isDigit c.toNat = true := by simp [Charset.isDigit_toNat, notDigit]
  have hs : ¬ Charset.isWordStart c.toNat = true := by simpa [Charset.wordStart] using notStart
  have hu : Lexeme none [c] (.single c.toNat) := .single notBlank notDigit notStart
  have hline := h'.line
  rw [hu.count_append] at hline
  refine ⟨r', ?_, h'⟩
  rw [hnext, tokenFrom, if_neg hd, if_neg hs, Reader.token, hline, ofCode_toNat,
    Kind.ofCode_natCast]

/-- A numeral or a word is read as a run, from its first character on. -/
theorem next_run {w u : List Char} {next : Option Char} {kind : Kind}
    (hw : ∀ c ∈ w, Charset.blank c = true) (hu : Lexeme next u kind) (hk : kind.isRun = true)
    (h : r.Facing before (w ++ u ++ rest) tail) :
    ∃ cls kindOf, RunOf cls kindOf next u kind ∧ ∃ r₁ : Reader,
      r.next = r₁.runToken cls kindOf ∧ r₁.Facing (before ++ w) (u ++ rest) tail := by
  rw [List.append_assoc] at h
  cases hu with
  | @int u nonempty digits ends =>
    obtain ⟨c, v, rfl⟩ := List.exists_cons_of_ne_nil nonempty
    have hc : c.isDigit = true := digits c (by simp)
    obtain ⟨r₁, hnext, h₁⟩ := h.next_tokenFrom hw (Charset.not_blank_of_digit hc)
    refine ⟨Charset.isDigit, fun _ => .intLiteral, .int digits ends, _, ?_, h₁.unread_char⟩
    rw [hnext, tokenFrom, if_pos (by rwa [Charset.isDigit_toNat])]
  | @word c v kind start parts ends spelled =>
    obtain ⟨r₁, hnext, h₁⟩ := h.next_tokenFrom hw (Charset.not_blank_of_wordStart start)
    have hd : ¬ Charset.isDigit c.toNat = true := by
      rw [Charset.isDigit_toNat]
      intro hd
      simp [Charset.not_wordStart_of_digit hd] at start
    have hs : Charset.isWordStart c.toNat = true := start
    refine ⟨Charset.isWordPart, Kind.ofWord, .word parts ends spelled, _, ?_, h₁.unread_char⟩
    rw [hnext, tokenFrom, if_neg hd, if_pos hs]
  | single => cases hk

/-- A lexeme with some character after it is the next token, and so is a single character. -/
theorem next_lexeme {w u : List Char} {kind : Kind} (hw : ∀ c ∈ w, Charset.blank c = true)
    (hu : Lexeme rest.head? u kind) (ended : kind.isRun = true → rest ≠ [])
    (h : r.Facing before (w ++ u ++ rest) tail) :
    ∃ r', r.next = (.ok ⟨kind, u.map .char, 1 + (before ++ w).count '\n'⟩, r') ∧
      r'.Facing (before ++ w ++ u) rest tail := by
  cases hk : kind.isRun with
  | true =>
    obtain ⟨cls, kindOf, hrun, r₁, hnext, h₁⟩ := h.next_run hw hu hk
    obtain ⟨c, rest, rfl⟩ := List.exists_cons_of_ne_nil (ended hk)
    obtain ⟨r₂, h₂, htake⟩ := h₁.takeRun_append hrun.parts
    obtain ⟨r₃, hread, h₃⟩ := h₂.read_cons
    refine ⟨_, ?_, h₃.unread_char⟩
    rw [hnext]
    refine hrun.runToken hu ?_ h₃.unread_char.line
    simp [htake, takeRun_of_read_code hread, hrun.ends c rfl]
  | false =>
    cases hu with
    | single notBlank notDigit notStart => exact h.next_single hw notBlank notDigit notStart
    | int => cases hk
    | word _ _ _ spelled => cases spelled <;> cases hk

end Facing

namespace At

variable {r : Reader} {before rest : List Char}

theorem next_blanks {w : List Char} (hw : ∀ c ∈ w, Charset.blank c = true)
    (h : r.At before w) : ∃ r', r.next = (.ok (.endOfFile (1 + (before ++ w).count '\n')), r') ∧
      r'.At (before ++ w) [] := by
  rw [← List.append_nil w] at h
  obtain ⟨k, hf⟩ := h
  obtain ⟨r₁, hs, h₁⟩ := hf.skipBlanks_blanks hw
  obtain ⟨r', hr, h'⟩ := At.read_nil ⟨k, h₁⟩
  refine ⟨r', ?_, h'⟩
  rw [next, hs, skipBlanks_of_read_endOfFile hr]
  simp only [h'.line]

/-- The next token is the next lexeme. -/
theorem next_lexeme {w u : List Char} {kind : Kind} (hw : ∀ c ∈ w, Charset.blank c = true)
    (hu : Lexeme rest.head? u kind) (h : r.At before (w ++ u ++ rest)) :
    ∃ r', r.next = (.ok ⟨kind, u.map .char, 1 + (before ++ w).count '\n'⟩, r') ∧
      r'.At (before ++ w ++ u) rest := by
  obtain ⟨k, hf⟩ := h
  by_cases hend : kind.isRun = true ∧ rest = []
  · -- The run is ended by the end of file, which is given back.
    obtain ⟨hk, rfl⟩ := hend
    obtain ⟨cls, kindOf, hrun, r₁, hnext, h₁⟩ := hf.next_run hw hu hk
    obtain ⟨r₂, h₂, htake⟩ := h₁.takeRun_append hrun.parts
    obtain ⟨r₃, hread, h₃⟩ := At.read_nil ⟨k, h₂⟩
    refine ⟨_, ?_, h₃.unread_endOfFile⟩
    rw [hnext]
    refine hrun.runToken hu ?_ h₃.unread_endOfFile.line
    simp [htake, takeRun_of_read_endOfFile hread]
  · have ended : kind.isRun = true → rest ≠ [] := fun hk hr => hend ⟨hk, hr⟩
    obtain ⟨r', hnext, h'⟩ := hf.next_lexeme hw hu ended
    exact ⟨r', hnext, k, h'⟩

end At

/-- What the call of `next` with a number gives, when it is called over and over. -/
def nth (r : Reader) : Nat → Except Failure Token
  | 0 => r.next.1
  | i + 1 => r.next.2.nth i

theorem At.nth_nil {r : Reader} {before : List Char} (h : r.At before []) (i : Nat) :
    r.nth i = .ok (.endOfFile (1 + before.count '\n')) := by
  induction i generalizing r with
  | zero =>
    obtain ⟨r', hn, -⟩ := h.next_blanks (by simp)
    rw [nth, hn, List.append_nil]
  | succ i ih =>
    obtain ⟨r', hn, h'⟩ := h.next_blanks (by simp)
    rw [List.append_nil] at h'
    rw [nth, hn, ih h']

/-- Call after call gives the tokens of a cut, and then the end of file. -/
theorem At.nth_cut {r : Reader} {before rest : List Char} {ts : List Token}
    (hc : Cut before rest ts) (h : r.At before rest) (i : Nat) :
    r.nth i = .ok (ts[i]?.getD (.endOfFile (1 + (before ++ rest).count '\n'))) := by
  induction hc generalizing r i with
  | blanks blank =>
    obtain ⟨r', hn, h'⟩ := h.next_blanks blank
    cases i with
    | zero => simp [nth, hn]
    | succ i => simp [nth, hn, h'.nth_nil]
  | token blank lexeme _ ih =>
    obtain ⟨r', hn, h'⟩ := h.next_lexeme blank lexeme
    cases i with
    | zero => simp [nth, hn]
    | succ i => simp [nth, hn, ih h']

theorem scan_of_next {r rest : Reader} {t : Token} (h : r.next = (.ok t, rest))
    (ht : t.kind ≠ .endOfFile) : r.scan.1 = ⟨t :: rest.scan.1.tokens, rest.scan.1.stop⟩ := by
  rw [scan]
  split <;> rename_i h' <;> cases h.symm.trans h'
  rw [dif_neg ht]

theorem scan_of_endOfFile {r rest : Reader} {t : Token} (h : r.next = (.ok t, rest))
    (ht : t.kind = .endOfFile) : r.scan.1 = ⟨[], .endOfFile t.line⟩ := by
  rw [scan]
  split <;> rename_i h' <;> cases h.symm.trans h'
  rw [dif_pos ht]

/-- All tokens that can be read are those of a cut. -/
theorem At.scan_cut {r : Reader} {before rest : List Char} {ts : List Token}
    (hc : Cut before rest ts) (h : r.At before rest) :
    r.scan.1 = ⟨ts, .endOfFile (1 + (before ++ rest).count '\n')⟩ := by
  induction hc generalizing r with
  | blanks blank =>
    obtain ⟨r', hn, _⟩ := h.next_blanks blank
    rw [scan_of_endOfFile hn rfl]
    rfl
  | token blank lexeme _ ih =>
    obtain ⟨r', hn, h'⟩ := h.next_lexeme blank lexeme
    rw [scan_of_next hn lexeme.kind_ne_endOfFile, ih h']
    simp only [List.append_assoc]

theorem items_characters (t : Text) : items t = items (t.characters.map .char) := by
  simp only [items, Text.characters, List.map_map]
  refine List.map_congr_left fun g _ => ?_
  cases g <;> rfl

theorem at_text (t : Text) : At (ofText t) [] t.characters := by
  rw [ofText, items_characters]
  exact at_ofText _

end Reader

/-- Both cuts are what one and the same reader gives. -/
theorem Cut.unique {text : List Char} {ts us : List Token} (ht : Cut [] text ts)
    (hu : Cut [] text us) : ts = us := by
  have ends (vs : List Token) (hv : Cut [] text vs) (i : Nat) : vs[i]? =
      match (Reader.ofText (text.map .char)).nth i with
      | .ok t => if t.kind = .endOfFile then none else some t
      | .error _ => none := by
    rw [(Reader.at_ofText text).nth_cut hv]
    cases h : vs[i]? with
    | none => simp [Token.endOfFile]
    | some t => simp [hv.kind_ne_endOfFile t (List.mem_of_getElem? h)]
  refine List.ext_getElem? fun i => ?_
  rw [ends ts ht, ends us hu]

/-- There is exactly one way to cut a text into tokens, with no more tokens than characters. A
reader of the text gives these tokens in order, and from then on the end of file. -/
theorem Reader.nth_ofText (t : Text) : ∃ ts, (∀ us, Cut [] t.characters us ↔ us = ts) ∧
    ts.length ≤ t.length ∧
    ∀ i, (ofText t).nth i =
      .ok (ts[i]?.getD (.endOfFile (1 + t.characters.count '\n'))) := by
  obtain ⟨ts, hts⟩ := exists_cut [] t.characters
  refine ⟨ts, fun us => ⟨fun hus => hus.unique hts, fun h => h ▸ hts⟩, ?_, fun i => ?_⟩
  · have := hts.length_le
    rwa [Text.characters, List.length_map] at this
  · have hr : ofText t = ofText (t.characters.map .char) := by
      rw [ofText, items_characters, ofText]
    rw [hr, (at_ofText _).nth_cut hts, List.nil_append]

end IntLang
