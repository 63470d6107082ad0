import IntLang.Proofs.Text.Newlines
import IntLang.Proofs.Text.Numerals
import IntLang.Proofs.Tree.Source

/-! Programs written as text. A tree is written token by token, with any blanks between the tokens
and with parentheses only around an operand that would be grouped otherwise. The text reads back as
the same tree, and each node of it has the token that was written for it. -/
namespace IntLang

/-- Blanks around the tokens of a text: before the token of each number, and after the last one.
No two tokens touch. -/
structure Spacing where
  gap : Nat → List Char
  last : List Char
  gap_blank : ∀ i, ∀ c ∈ gap i, Charset.blank c = true
  last_blank : ∀ c ∈ last, Charset.blank c = true
  apart : ∀ i, gap (i + 1) ≠ []

/-- A writer, by the tokens that are on the page. -/
abbrev Pen := StateM (List Token)

namespace Spacing

variable (s : Spacing)

/-- The tokens of a page, each with the blanks before it. -/
def text (page : List Token) : Text :=
  page.zipIdx.flatMap fun (t, i) => (s.gap i).map .char ++ t.lexeme

/-- The text up to the place of the next token. -/
def before (page : List Token) : Text := s.text page ++ (s.gap page.length).map .char

def source (page : List Token) : Text := s.text page ++ s.last.map .char

/-- A token in the next place, with the line of that place. -/
def token (page : List Token) (kind : Kind) (lexeme : Text) : Token :=
  ⟨kind, lexeme, 1 + (s.before page).count (.char '\n')⟩

def put (kind : Kind) (lexeme : Text) : Pen Token := fun page =>
  (s.token page kind lexeme, page ++ [s.token page kind lexeme])

def sign (c : Char) : Pen Token := s.put (.char c) [.char c]

def word (k : Keyword) : Pen Token := s.put (.keyword k) k.spelling

def name (name : Text) : Pen Ident := do
  let t ← s.put .identifier name
  return ⟨t, name⟩

/-- An operand, in parentheses if they are needed. -/
def enclose (needed : Bool) (operand : Pen Expr) : Pen Expr :=
  if needed then do
    let _ ← s.sign '('
    let e ← operand
    let _ ← s.sign ')'
    return e
  else operand

end Spacing

namespace Operator

def sign : Operator → Char
  | .add => '+'
  | .sub => '-'
  | .mul => '*'
  | .div => '/'

def rank : Operator → Rank
  | .add | .sub => .sum
  | .mul | .div => .term

/-- A left operand needs parentheses if it is a sum in a product. -/
def enclosesLeft (op : Operator) (operand : Rank) : Bool := op.rank = .term ∧ operand = .sum

/-- A right operand needs parentheses if it is a sum, or a product in a product. -/
def enclosesRight (op : Operator) (operand : Rank) : Bool :=
  operand = .sum ∨ op.rank = .term ∧ operand = .term

end Operator

def Storage.keyword : Storage → Keyword
  | .globalVar => .globalWord
  | .localVar => .localWord

namespace Expr

def rank : Expr → Rank
  | .int _ _ | .var _ => .factor
  | .binary _ op _ _ => op.rank

/-- Write an expression. What comes back is the expression with the tokens that were written. -/
def write (s : Spacing) : Expr → Pen Expr
  | .int _ value => do
    let t ← s.put .intLiteral (Decimal.ofInt value.toInt)
    return .int t value
  | .var id => do
    let id ← s.name id.name
    return .var id
  | .binary _ op left right => do
    let x ← s.enclose (op.enclosesLeft left.rank) (left.write s)
    let t ← s.sign op.sign
    let y ← s.enclose (op.enclosesRight right.rank) (right.write s)
    return .binary t op x y

end Expr

def Stmt.write (s : Spacing) : Stmt → Pen Stmt
  | .declare _ storage name init => do
    let k ← s.word storage.keyword
    let _ ← s.word .intWord
    let id ← s.name name.name
    match init with
    | none =>
      let _ ← s.sign ';'
      return .declare k storage id none
    | some init =>
      let _ ← s.sign '='
      let x ← init.write s
      let _ ← s.sign ';'
      return .declare k storage id (some x)
  | .assign _ target value => do
    let id ← s.name target.name
    let t ← s.sign '='
    let x ← value.write s
    let _ ← s.sign ';'
    return .assign t id x
  | .print _ value => do
    let k ← s.word .printWord
    let x ← value.write s
    let _ ← s.sign ';'
    return .print k x
  | .ret _ value => do
    let k ← s.word .returnWord
    match value with
    | none =>
      let _ ← s.sign ';'
      return .ret k none
    | some value =>
      let x ← value.write s
      let _ ← s.sign ';'
      return .ret k (some x)

def writeAll (s : Spacing) : List Stmt → Pen (List Stmt)
  | [] => return []
  | st :: ss => do
    let x ← st.write s
    let xs ← writeAll s ss
    return x :: xs

/-- A name that reads as one identifier. -/
def Text.IsIdentifier (name : Text) : Prop :=
  (∃ c u, name = (c :: u).map .char ∧ Charset.wordStart c = true ∧
    ∀ d ∈ u, Charset.wordPart d = true) ∧ ∀ k : Keyword, name ≠ k.spelling

/-- The names are identifiers, and the numbers can be written without a sign. -/
def Expr.Writable : Expr → Prop
  | .int _ value => 0 ≤ value
  | .var id => id.name.IsIdentifier
  | .binary _ _ left right => left.Writable ∧ right.Writable

def Stmt.Writable : Stmt → Prop
  | .declare _ _ name init => name.name.IsIdentifier ∧ ∀ x ∈ init, x.Writable
  | .assign _ target value => target.name.IsIdentifier ∧ value.Writable
  | .print _ value => value.Writable
  | .ret _ value => ∀ x ∈ value, x.Writable

def Ident.bare (id : Ident) : Ident := ⟨.zero, id.name⟩

/-- All of an expression but its tokens. -/
def Expr.bare : Expr → Expr
  | .int _ value => .int .zero value
  | .var id => .var id.bare
  | .binary _ op left right => .binary .zero op left.bare right.bare

def Stmt.bare : Stmt → Stmt
  | .declare _ storage name init => .declare .zero storage name.bare (init.map Expr.bare)
  | .assign _ target value => .assign .zero target.bare value.bare
  | .print _ value => .print .zero value.bare
  | .ret _ value => .ret .zero (value.map Expr.bare)

/-- The tokens of the nodes in the order of the text. -/
def Expr.tokens : Expr → List Token
  | .int tok _ => [tok]
  | .var id => [id.tok]
  | .binary tok _ left right => left.tokens ++ tok :: right.tokens

def Stmt.tokens : Stmt → List Token
  | .declare tok _ name init => tok :: name.tok :: init.elim [] Expr.tokens
  | .assign tok target value => target.tok :: tok :: value.tokens
  | .print tok value => tok :: value.tokens
  | .ret tok value => tok :: value.elim [] Expr.tokens

section Pages

theorem Text.characters_append (t u : Text) :
    Text.characters (t ++ u) = t.characters ++ u.characters := List.map_append

theorem Text.characters_char (u : List Char) : Text.characters (u.map .char) = u := by
  rw [characters, List.map_map]
  exact List.map_id u

/-- The lexeme is one of its kind wherever a blank or nothing follows. -/
def Stands (kind : Kind) (lexeme : Text) : Prop :=
  ∃ u : List Char, lexeme = u.map .char ∧
    ∀ next : Option Char, (∀ c ∈ next, Charset.blank c = true) → Lexeme next u kind

theorem stands_int {v : Int64} (h : 0 ≤ v) : Stands .intLiteral (Decimal.ofInt v.toInt) := by
  obtain ⟨n, _, _, htext⟩ := Decimal.exists_ofInt h
  refine ⟨Nat.toDigits 10 n, htext, ?_⟩
  intro next blank
  refine .int Nat.toDigits_ne_nil ?_ ?_
  · intro c hc
    exact Nat.isDigit_of_mem_toDigits (by omega) (by omega) hc
  · intro c hc
    exact Charset.not_digit_of_blank (blank c hc)

theorem stands_word {kind : Kind} {c : Char} {u : List Char} (start : Charset.wordStart c = true)
    (parts : ∀ d ∈ u, Charset.wordPart d = true) (spelled : WordKind ((c :: u).map .char) kind) :
    Stands kind ((c :: u).map .char) := by
  refine ⟨c :: u, rfl, ?_⟩
  intro next blank
  refine .word start ?_ ?_ spelled
  · exact List.forall_mem_cons.mpr ⟨Charset.wordPart_of_wordStart start, parts⟩
  · intro d hd
    exact Charset.not_wordPart_of_blank (blank d hd)

theorem Keyword.exists_spelling (k : Keyword) : ∃ c u, k.spelling = (c :: u).map .char ∧
    Charset.wordStart c = true ∧ ∀ d ∈ u, Charset.wordPart d = true := by
  cases k with
  | globalWord => exact ⟨'g', "lobal".toList, rfl, rfl, List.all_eq_true.mp rfl⟩
  | localWord => exact ⟨'l', "ocal".toList, rfl, rfl, List.all_eq_true.mp rfl⟩
  | returnWord => exact ⟨'r', "eturn".toList, rfl, rfl, List.all_eq_true.mp rfl⟩
  | printWord => exact ⟨'p', "rint".toList, rfl, rfl, List.all_eq_true.mp rfl⟩
  | intWord => exact ⟨'i', "nt".toList, rfl, rfl, List.all_eq_true.mp rfl⟩

theorem stands_keyword (k : Keyword) : Stands (.keyword k) k.spelling := by
  obtain ⟨c, u, hk, start, parts⟩ := k.exists_spelling
  rw [hk]
  exact stands_word start parts (.keyword hk.symm)

theorem Text.IsIdentifier.stands {name : Text} (h : name.IsIdentifier) :
    Stands .identifier name := by
  obtain ⟨⟨c, u, rfl, start, parts⟩, notKeyword⟩ := h
  exact stands_word start parts (.identifier notKeyword)

/-- A character that is a token of its own. -/
def IsSign (c : Char) : Bool := !Charset.blank c && !c.isDigit && !Charset.wordStart c

theorem stands_sign {c : Char} (h : IsSign c = true) : Stands (.char c) [.char c] := by
  refine ⟨[c], rfl, ?_⟩
  intro next _
  simp only [IsSign, Bool.and_eq_true, Bool.not_eq_true'] at h
  exact .single h.1.1 h.1.2 h.2

variable {s : Spacing}

/-- A page is written token by token. -/
inductive Spacing.Page (s : Spacing) : List Token → Prop
  | nil : Page s []
  | put {page : List Token} {kind : Kind} {lexeme : Text} (earlier : Page s page)
      (stands : Stands kind lexeme) : Page s (page ++ [s.token page kind lexeme])

namespace Spacing

theorem text_concat (page : List Token) (t : Token) :
    s.text (page ++ [t]) = s.before page ++ t.lexeme := by
  simp [text, before, List.zipIdx_append]

theorem gap_head {page : List Token} (hpage : page ≠ []) (rest : List Char) :
    ∀ c ∈ (s.gap page.length ++ rest).head?, Charset.blank c = true := by
  intro c hc
  obtain ⟨t, ts, rfl⟩ := List.exists_cons_of_ne_nil hpage
  obtain ⟨d, w, hw⟩ := List.exists_cons_of_ne_nil (s.apart ts.length)
  rw [List.length_cons, hw] at hc
  obtain rfl : d = c := by simpa using hc
  exact s.gap_blank (ts.length + 1) d (by simp [hw])

/-- A page is cut into its tokens, if the text goes on with a blank. -/
theorem Page.cut {page : List Token} (h : s.Page page) {rest : List Char} {ts : List Token}
    (hrest : page ≠ [] → ∀ c ∈ rest.head?, Charset.blank c = true)
    (hc : Cut (s.text page).characters rest ts) :
    Cut [] ((s.text page).characters ++ rest) (page ++ ts) := by
  -- from the last token back, so that the tokens behind a place are cut already
  induction h generalizing rest ts with
  | nil => exact hc
  | @put page kind lexeme earlier stands ih =>
    obtain ⟨u, rfl, lexeme⟩ := stands
    have hbefore : (s.before page).characters = (s.text page).characters ++ s.gap page.length := by
      rw [before, Text.characters_append, Text.characters_char]
    have htext : (s.text (page ++ [s.token page kind (u.map .char)])).characters =
        (s.text page).characters ++ s.gap page.length ++ u := by
      rw [text_concat, Text.characters_append, hbefore, token, Text.characters_char]
    have htoken : s.token page kind (u.map .char) = ⟨kind, u.map .char,
        1 + ((s.text page).characters ++ s.gap page.length).count '\n'⟩ := by
      rw [token, ← Text.count_characters, hbefore]
    rw [htext] at hc
    rw [htext, htoken]
    have hcut := Cut.token (s.gap_blank page.length) (lexeme _ (hrest (by simp))) hc
    have := ih (fun hpage => by simpa using gap_head hpage (u ++ rest)) hcut
    simpa using this

/-- Every token has the line of its place in the text. -/
theorem Page.placed {page : List Token} (h : s.Page page) {i : Nat} {t : Token}
    (ht : page[i]? = some t) : s.before (page.take i) ++ t.lexeme <+: s.text page ∧
      t.line = 1 + (s.before (page.take i)).count (.char '\n') := by
  induction h with
  | nil => cases ht
  | @put page kind lexeme earlier _ ih =>
    have hi : i < page.length + 1 := by simpa using (List.getElem?_eq_some_iff.mp ht).1
    rw [List.take_append_of_le_length (by omega), text_concat]
    rcases Nat.lt_succ_iff_lt_or_eq.mp hi with hi | rfl
    · rw [List.getElem?_append_left hi] at ht
      obtain ⟨within, line⟩ := ih ht
      refine ⟨within.trans ?_, line⟩
      rw [before, List.append_assoc]
      exact List.prefix_append _ _
    · obtain rfl : s.token page kind lexeme = t := by simpa using ht
      rw [List.take_length]
      exact ⟨List.prefix_rfl, rfl⟩

end Spacing
end Pages

section Pens

variable {s : Spacing} {α β : Type}

/-- What a pen does on any page: it writes some tokens, and its result goes with them. -/
def Spacing.Writes (s : Spacing) (x : Pen α) (P : List Token → α → Prop) : Prop :=
  ∀ page, s.Page page → ∃ ts a, x page = (a, page ++ ts) ∧ s.Page (page ++ ts) ∧ P ts a

namespace Spacing

theorem writes_pure {a : α} {P : List Token → α → Prop} (h : P [] a) :
    s.Writes (pure a) P := by
  intro page hpage
  exact ⟨[], a, by rw [List.append_nil]; rfl, by rwa [List.append_nil], h⟩

theorem Writes.bind {x : Pen α} {f : α → Pen β} {P : List Token → α → Prop}
    {Q : List Token → β → Prop} (hx : s.Writes x P)
    (hf : ∀ ts a, P ts a → s.Writes (f a) fun us b => Q (ts ++ us) b) : s.Writes (x >>= f) Q := by
  intro page hpage
  obtain ⟨ts, a, hrun, hpage, ha⟩ := hx page hpage
  obtain ⟨us, b, hrun', hpage, hb⟩ := hf ts a ha _ hpage
  rw [List.append_assoc] at hrun' hpage
  refine ⟨ts ++ us, b, ?_, hpage, hb⟩
  rw [← hrun']
  change (x page >>= fun p => f p.1 p.2) = _
  rw [hrun]
  rfl

theorem Writes.mono {x : Pen α} {P Q : List Token → α → Prop} (hx : s.Writes x P)
    (h : ∀ ts a, P ts a → Q ts a) : s.Writes x Q := by
  intro page hpage
  obtain ⟨ts, a, hrun, hpage, ha⟩ := hx page hpage
  exact ⟨ts, a, hrun, hpage, h ts a ha⟩

theorem writes_put {kind : Kind} {lexeme : Text} (h : Stands kind lexeme) :
    s.Writes (s.put kind lexeme) fun ts t => ts = [t] ∧ t.kind = kind ∧ t.lexeme = lexeme := by
  intro page hpage
  exact ⟨[_], _, rfl, .put hpage h, rfl, rfl, rfl⟩

theorem writes_sign {c : Char} (h : IsSign c = true) :
    s.Writes (s.sign c) fun ts t => ts = [t] ∧ t.kind = .char c :=
  (writes_put (stands_sign h)).mono fun _ _ ⟨hts, hkind, _⟩ => ⟨hts, hkind⟩

theorem writes_word (k : Keyword) :
    s.Writes (s.word k) fun ts t => ts = [t] ∧ t.kind = .keyword k :=
  (writes_put (stands_keyword k)).mono fun _ _ ⟨hts, hkind, _⟩ => ⟨hts, hkind⟩

theorem writes_name {name : Text} (h : name.IsIdentifier) :
    s.Writes (s.name name) fun ts id =>
      ts = [id.tok] ∧ id.tok.kind = .identifier ∧ id = ⟨id.tok, id.tok.lexeme⟩ ∧ id.name = name := by
  refine (writes_put h.stands).bind fun ts t ht => writes_pure ?_
  obtain ⟨rfl, hkind, rfl⟩ := ht
  exact ⟨rfl, hkind, rfl, rfl⟩

end Spacing
end Pens

section Spelling

variable {s : Spacing}

/-- How loosely an expression of a rank holds together. -/
def Rank.looseness : Rank → Nat
  | .factor => 0
  | .term => 1
  | .sum => 2

theorem Spells.loosen {rank rank' : Rank} {ts : List Token} {x : Node} (h : Spells rank ts x)
    (hr : rank.looseness ≤ rank'.looseness) : Spells rank' ts x := by
  cases rank with
  | factor =>
    cases rank' with
    | factor => exact h
    | term => exact .ofFactor h
    | sum => exact .ofTerm (.ofFactor h)
  | term =>
    cases rank' with
    | factor => exact absurd hr (by decide)
    | term => exact h
    | sum => exact .ofTerm h
  | sum =>
    cases rank' with
    | factor => exact absurd hr (by decide)
    | term => exact absurd hr (by decide)
    | sum => exact h

namespace Operator

/-- The rank of what may stand to the right of an operator without parentheses. -/
def rightRank : Operator → Rank
  | .add | .sub => .term
  | .mul | .div => .factor

theorem looseness_left {op : Operator} {rank : Rank} (h : op.enclosesLeft rank = false) :
    rank.looseness ≤ op.rank.looseness := by
  cases op <;> cases rank <;> first | decide | cases h

theorem looseness_right {op : Operator} {rank : Rank} (h : op.enclosesRight rank = false) :
    rank.looseness ≤ op.rightRank.looseness := by
  cases op <;> cases rank <;> first | decide | cases h

theorem isSign_sign (op : Operator) : IsSign op.sign = true := by
  cases op <;> decide

theorem kind_eq (op : Operator) : op.kind = .char op.sign := by
  cases op <;> rfl

end Operator

theorem Spells.binary {op : Operator} {ts us : List Token} {t : Token} {x y : Node}
    (hx : Spells op.rank ts x) (ht : t.kind = op.kind) (hy : Spells op.rightRank us y) :
    Spells op.rank (ts ++ t :: us) (.binop t op.kind x y) := by
  rw [← ht]
  cases op with
  | add => exact .sum hx (.inl ht) hy
  | sub => exact .sum hx (.inr ht) hy
  | mul => exact .product hx (.inl ht) hy
  | div => exact .product hx (.inr ht) hy

/-- The tokens spell an expression that is the given one but for its own tokens, and these are
some of the tokens, in their order. -/
structure Expr.Spelled (rank : Rank) (e : Expr) (ts : List Token) (x : Expr) : Prop where
  spells : Spells rank ts x.node
  same : x.bare = e.bare
  tokens : x.tokens.Sublist ts

theorem Spacing.writes_operand {rank : Rank} {e : Expr} {needed : Bool} {x : Pen Expr}
    (hr : needed = false → e.rank.looseness ≤ rank.looseness)
    (hx : s.Writes x (e.Spelled e.rank)) : s.Writes (s.enclose needed x) (e.Spelled rank) := by
  cases needed with
  | false => exact hx.mono fun ts y hy => ⟨hy.spells.loosen (hr rfl), hy.same, hy.tokens⟩
  | true =>
    refine (writes_sign (by decide)).bind fun os o ho => hx.bind fun ts y hy =>
      (writes_sign (by decide)).bind fun cs c hc => writes_pure ?_
    obtain ⟨rfl, ho⟩ := ho
    obtain ⟨rfl, hc⟩ := hc
    rw [List.append_nil]
    have hsum : Spells .sum ts y.node := hy.spells.loosen (by cases e.rank <;> decide)
    -- in parentheses it is a factor, and a factor may stand in any place
    refine ⟨(Spells.parens ho hsum hc).loosen (Nat.zero_le _), hy.same, ?_⟩
    exact (hy.tokens.trans (List.sublist_append_left ts [c])).cons o

theorem Expr.write_spelled (e : Expr) (h : e.Writable) :
    s.Writes (e.write s) (e.Spelled e.rank) := by
  induction e with
  | int tok value =>
    refine (Spacing.writes_put (stands_int h)).bind fun ts t ht => Spacing.writes_pure ?_
    obtain ⟨rfl, hkind, hlexeme⟩ := ht
    refine ⟨.int hkind ?_, rfl, List.Sublist.refl _⟩
    rw [hlexeme, Decimal.word?_ofInt h]
  | var id =>
    refine (Spacing.writes_name h).bind fun ts id' hid => Spacing.writes_pure ?_
    obtain ⟨rfl, hkind, hlexeme, hname⟩ := hid
    refine ⟨?_, by rw [bare, bare, Ident.bare, Ident.bare, hname], List.Sublist.refl _⟩
    rw [node, hlexeme]
    exact .ident hkind
  | binary tok op left right ihl ihr =>
    refine (Spacing.writes_operand op.looseness_left (ihl h.1)).bind fun ts x hx =>
      (Spacing.writes_sign op.isSign_sign).bind fun us t ht =>
      (Spacing.writes_operand op.looseness_right (ihr h.2)).bind fun vs y hy =>
      Spacing.writes_pure ?_
    obtain ⟨rfl, hkind⟩ := ht
    rw [List.append_nil]
    refine ⟨?_, by rw [bare, bare, hx.same, hy.same], hx.tokens.append (hy.tokens.cons_cons t)⟩
    exact .binary hx.spells (hkind.trans op.kind_eq.symm) hy.spells

structure Stmt.Spelled (st : Stmt) (ts : List Token) (x : Stmt) : Prop where
  spells : SpellsStatement ts x.node
  same : x.bare = st.bare
  tokens : x.tokens.Sublist ts

/-- The end of a statement: an expression and a semicolon. -/
theorem Spacing.writes_value {e : Expr} (h : e.Writable) {f : Expr → Stmt}
    {Q : List Token → Stmt → Prop}
    (hQ : ∀ ts x c, e.Spelled .sum ts x → c.kind = .char ';' → Q (ts ++ [c]) (f x)) :
    s.Writes (do let x ← e.write s; let _ ← s.sign ';'; return f x) Q := by
  refine (e.write_spelled h).bind fun ts x hx =>
    (writes_sign (by decide)).bind fun _ c hc => writes_pure ?_
  obtain ⟨rfl, hc⟩ := hc
  rw [List.append_nil]
  have hsum : Spells .sum ts x.node := hx.spells.loosen (by cases e.rank <;> decide)
  exact hQ ts x c ⟨hsum, hx.same, hx.tokens⟩ hc

theorem Storage.declarationWord {storage : Storage} {k : Token}
    (h : k.kind = .keyword storage.keyword) : DeclarationWord k.kind storage.scope := by
  rw [h]
  cases storage with
  | globalVar => exact .globalWord
  | localVar => exact .localWord

theorem Stmt.write_spelled (st : Stmt) (h : st.Writable) : s.Writes (st.write s) st.Spelled := by
  cases st with
  | declare tok storage name init =>
    refine (Spacing.writes_word storage.keyword).bind fun _ k hk =>
      (Spacing.writes_word .intWord).bind fun _ i hi =>
      (Spacing.writes_name h.1).bind fun _ id hid => ?_
    obtain ⟨rfl, hk⟩ := hk
    obtain ⟨rfl, hi⟩ := hi
    obtain ⟨rfl, hkind, hlexeme, hname⟩ := hid
    have hbare : id.bare = name.bare := by rw [Ident.bare, Ident.bare, hname]
    have word := Storage.declarationWord hk
    cases init with
    | none =>
      refine (Spacing.writes_sign (by decide)).bind fun _ e he => Spacing.writes_pure ?_
      obtain ⟨rfl, he⟩ := he
      refine ⟨?_, by simp only [bare, hbare], ?_⟩
      · rw [node, hlexeme]
        exact .declare word hi hkind he
      · exact (((List.nil_sublist [e]).cons_cons id.tok).cons i).cons_cons k
    | some init =>
      refine (Spacing.writes_sign (by decide)).bind fun _ q hq =>
        Spacing.writes_value (h.2 init rfl) ?_
      obtain ⟨rfl, hq⟩ := hq
      intro ts x e hx he
      refine ⟨?_, by simp only [bare, hbare, Option.map_some, hx.same], ?_⟩
      · rw [node, hlexeme]
        exact .initialise word hi hkind hq hx.spells he
      · have hts := hx.tokens.trans (List.sublist_append_left ts [e])
        exact (((hts.cons q).cons_cons id.tok).cons i).cons_cons k
  | assign tok target value =>
    refine (Spacing.writes_name h.1).bind fun _ id hid =>
      (Spacing.writes_sign (by decide)).bind fun _ q hq => Spacing.writes_value h.2 ?_
    obtain ⟨rfl, hkind, hlexeme, hname⟩ := hid
    obtain ⟨rfl, hq⟩ := hq
    intro ts x e hx he
    have hbare : id.bare = target.bare := by rw [Ident.bare, Ident.bare, hname]
    refine ⟨?_, by simp only [bare, hbare, hx.same], ?_⟩
    · rw [node, hlexeme]
      exact .assign hkind hq hx.spells he
    · have hts := hx.tokens.trans (List.sublist_append_left ts [e])
      exact (hts.cons_cons q).cons_cons id.tok
  | print tok value =>
    refine (Spacing.writes_word .printWord).bind fun _ k hk => Spacing.writes_value h ?_
    obtain ⟨rfl, hk⟩ := hk
    intro ts x e hx he
    refine ⟨.print hk hx.spells he, by simp only [bare, hx.same], ?_⟩
    exact (hx.tokens.trans (List.sublist_append_left ts [e])).cons_cons k
  | ret tok value =>
    refine (Spacing.writes_word .returnWord).bind fun _ k hk => ?_
    obtain ⟨rfl, hk⟩ := hk
    cases value with
    | none =>
      refine (Spacing.writes_sign (by decide)).bind fun _ e he => Spacing.writes_pure ?_
      obtain ⟨rfl, he⟩ := he
      exact ⟨.ret hk he, rfl, (List.nil_sublist [e]).cons_cons k⟩
    | some value =>
      refine Spacing.writes_value (h value rfl) ?_
      intro ts x e hx he
      refine ⟨.retValue hk hx.spells he, by simp only [bare, Option.map_some, hx.same], ?_⟩
      exact (hx.tokens.trans (List.sublist_append_left ts [e])).cons_cons k

theorem writeAll_spelled {ss : List Stmt} (h : ∀ st ∈ ss, st.Writable) :
    s.Writes (writeAll s ss) fun ts xs => SpellsStatements ts (xs.map Stmt.node) ∧
      xs.map Stmt.bare = ss.map Stmt.bare ∧ (xs.flatMap Stmt.tokens).Sublist ts := by
  induction ss with
  | nil => exact Spacing.writes_pure ⟨.nil, rfl, List.Sublist.refl _⟩
  | cons st ss ih =>
    rw [List.forall_mem_cons] at h
    refine (st.write_spelled h.1).bind fun ts x hx =>
      (ih h.2).bind fun us xs hxs => Spacing.writes_pure ?_
    obtain ⟨spells, same, tokens⟩ := hxs
    rw [List.append_nil]
    refine ⟨.cons hx.spells spells, ?_, ?_⟩
    · rw [List.map_cons, List.map_cons, hx.same, same]
    · rw [List.flatMap_cons]
      exact hx.tokens.append tokens

end Spelling

/-- A list of statements reads as a program with the first token as its own. -/
theorem SpellsStatements.parse {ts : List Token} {xs : List Node} (h : SpellsStatements ts xs)
    (hts : ∀ t ∈ ts, t.kind ≠ .endOfFile) (line : Int) :
    (TokenStream.parse ⟨ts, .endOfFile line⟩).result =
      .ok ⟨ts.head?.getD (.endOfFile line), xs⟩ := by
  have hfeed : Parser.feedAll {} ts = .ok ⟨ts.head?, xs.reverse ++ [], .statement⟩ :=
    Parser.feedAll_spellsStatements h rfl
  have hrun := Parser.run_append hts hfeed 0 (.endOfFile line) []
  rw [List.append_nil] at hrun
  rw [TokenStream.parse, hrun]
  simp [Parser.run, Parser.finish]

/-- The text of a page reads as the tokens of the page. -/
theorem Spacing.Page.scan {s : Spacing} {page : List Token} (h : s.Page page) :
    (Reader.ofText (s.source page)).scan.1 =
      ⟨page, .endOfFile (1 + (s.source page).count (.char '\n'))⟩ ∧
    ∀ t ∈ page, t.kind ≠ .endOfFile := by
  have hchars : (s.source page).characters = (s.text page).characters ++ s.last := by
    rw [source, Text.characters_append, Text.characters_char]
  have hlast : page ≠ [] → ∀ c ∈ s.last.head?, Charset.blank c = true :=
    fun _ c hc => s.last_blank c (List.mem_of_mem_head? hc)
  have hcut : Cut [] (s.source page).characters page := by
    have := h.cut hlast (.blanks s.last_blank)
    rwa [List.append_nil, ← hchars] at this
  have hreader : Reader.ofText (s.source page) =
      Reader.ofText ((s.source page).characters.map .char) := by
    rw [Reader.ofText, Reader.items_characters, Reader.ofText]
  refine ⟨?_, hcut.kind_ne_endOfFile⟩
  rw [hreader, (Reader.at_ofText _).scan_cut hcut, List.nil_append, Text.count_characters]

/-- A program that is written with any blanks between its tokens, and with no parentheses that are
not needed, reads back as the same program. The tokens of its nodes are tokens of the page in the
same order, and each has the line of its place in the text. -/
theorem Reader.parse_write (s : Spacing) (ss : List Stmt) (writable : ∀ st ∈ ss, st.Writable) :
    let written := ((writeAll s ss).run []).1
    let page := ((writeAll s ss).run []).2
    let source := s.source page
    (Reader.ofText source).parse.result =
      .ok ⟨page.head?.getD (.endOfFile (1 + source.count (.char '\n'))), written.map Stmt.node⟩ ∧
    written.map Stmt.bare = ss.map Stmt.bare ∧
    (written.flatMap Stmt.tokens).Sublist page ∧
    ∀ i t, page[i]? = some t → s.before (page.take i) ++ t.lexeme <+: source ∧
      t.line = 1 + (s.before (page.take i)).count (.char '\n') := by
  obtain ⟨page, written, hrun, hpage, spells, same, tokens⟩ :=
    writeAll_spelled (s := s) writable [] .nil
  rw [List.nil_append] at hrun hpage
  have hrun' : (writeAll s ss).run [] = (written, page) := hrun
  rw [hrun']
  obtain ⟨hscan, hkinds⟩ := hpage.scan
  refine ⟨?_, same, tokens, ?_⟩
  · rw [Reader.parse, hscan, spells.parse hkinds]
  · intro i t ht
    obtain ⟨within, line⟩ := hpage.placed ht
    exact ⟨within.trans (List.prefix_append _ _), line⟩

/-- Every token on a line of its own. -/
def Spacing.lines : Spacing where
  gap i := if i = 0 then [] else ['\n']
  last := ['\n']
  gap_blank i c hc := by
    split at hc
    · cases hc
    · rw [List.mem_singleton.mp hc, Charset.blank_newline]
  last_blank c hc := by rw [List.mem_singleton.mp hc, Charset.blank_newline]
  apart i := by simp

/-- A sum in a product stands in parentheses, and so does a quotient to the right of a product. -/
theorem Reader.parse_write_lines :
    let x : Expr := .var ⟨.zero, "x"⟩
    let one : Expr := .int .zero 1
    let ss : List Stmt :=
      [.print .zero (.binary .zero .mul (.binary .zero .add one x) (.binary .zero .div x one))]
    let text : Text := "print\n(\n1\n+\nx\n)\n*\n(\nx\n/\n1\n)\n;\n"
    Spacing.lines.source ((writeAll .lines ss).run []).2 = text ∧
    ∃ (tok : Token) (written : List Stmt),
      (Reader.ofText text).parse.result = .ok ⟨tok, written.map Stmt.node⟩ ∧
      written.map Stmt.bare = ss ∧
      (written.flatMap Stmt.tokens).map Token.line = [1, 3, 4, 5, 7, 9, 10, 11] := by
  intro x one ss text
  have hx : x.Writable := ⟨⟨'x', [], rfl, rfl, by simp⟩, fun k => by cases k <;> decide⟩
  have hone : one.Writable := (by decide : (0 : Int64) ≤ 1)
  have writable : ∀ st ∈ ss, st.Writable := by
    intro st hst
    rw [List.mem_singleton.mp hst]
    exact ⟨⟨hone, hx⟩, hx, hone⟩
  have source : Spacing.lines.source ((writeAll .lines ss).run []).2 = text := by decide
  have key := Reader.parse_write .lines ss writable
  simp only [source] at key
  exact ⟨source, _, _, key.1, key.2.1, by decide⟩

end IntLang
