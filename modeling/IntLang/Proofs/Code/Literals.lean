import IntLang.Code.Generator
import IntLang.Proofs.Text.Numerals
import IntLang.Proofs.Token.Cut
import IntLang.Proofs.Tree.Prefix

/-! Integer literals on their way from the source to an instruction. Digits are read as one token,
whatever their number. Where a factor may start the parser takes the token exactly if the number
that it stands for fits a word, and the instruction written for it has that number without leading
zeros. -/
namespace IntLang

/-- The literal of some digits. -/
def Token.literal (cs : List Char) (line : Int) : Token := ⟨.intLiteral, cs.map .char, line⟩

/-- The lines that are written for a node alone. -/
def Node.lines (f : Frame) (t : Table) (n : Node) : List Text :=
  (n.emit f t).instrs.map Instr.text

namespace Parser

/-- A literal at the place of a factor is taken for its value, if it has one. -/
theorem feed_intLiteral {ts : List Token} {p : Parser} {t : Token} (hp : feedAll {} ts = .ok p)
    (factor : FactorMayFollow ts) (kind : t.kind = .intLiteral) :
    ∃ goal level outer, p.feed t =
      (Decimal.word? t.lexeme).elim (.error ⟨t.line, .outOfRange t.lexeme⟩) fun v => .ok { p with
        first := p.first.or (some t), state := .operator goal level outer (.int t v) } := by
  obtain ⟨goal, level, outer, hstep⟩ :=
    step_intLiteral ((factorMayFollow_iff hp).mp factor) kind
  refine ⟨goal, level, outer, ?_⟩
  rw [feed, hstep]
  cases Decimal.word? t.lexeme <;> rfl

end Parser

/-- Digits that stand for a number in range have a value, and this is the number. -/
theorem Decimal.exists_word? {cs : List Char} (nonempty : cs ≠ [])
    (digits : ∀ c ∈ cs, c.isDigit = true) (h : Nat.ofDigitChars 10 cs 0 < wordLimit) :
    ∃ v, word? (cs.map .char) = some v ∧ v.toInt = Nat.ofDigitChars 10 cs 0 := by
  refine ⟨Int64.ofInt (Nat.ofDigitChars 10 cs 0), ?_, ?_⟩
  · rw [word?_digits nonempty digits, if_pos h]
  · rw [wordLimit] at h
    exact Int64.toInt_ofInt_of_le (by omega) (by omega)

/-- The value of a literal is written without the zeros that the literal may start with. -/
theorem Node.lines_literal {cs : List Char} (digits : ∀ c ∈ cs, c.isDigit = true) {v : Int64}
    (hv : v.toInt = Nat.ofDigitChars 10 cs 0) (tok : Token) (f : Frame) (t : Table) :
    Node.lines f t (.int tok v) = ["mov rax, " ++ ((Decimal.unpadded cs).map .char : Text)] := by
  have hvalue : Decimal.ofInt v.toInt = (Decimal.unpadded cs).map .char := by
    rw [hv, ← Decimal.toDigits_eq_unpadded digits]
    rfl
  rw [← hvalue, Node.lines, Node.emit]
  rfl

namespace TokenStream

section

variable {cs : List Char} (nonempty : cs ≠ []) (digits : ∀ c ∈ cs, c.isDigit = true)
  {ts : List Token} (factor : FactorMayFollow ts) (line : Int)

include nonempty digits factor

theorem parse_literal_in_range (h : Nat.ofDigitChars 10 cs 0 < Decimal.wordLimit) :
    StartsProgram (ts ++ [.literal cs line]) ∧ ∃ p goal level outer v,
      (∀ rest stop, TokenStream.parse ⟨ts ++ .literal cs line :: rest, stop⟩ =
        Parser.run p (ts.length + 1) stop rest) ∧
      p.state = .operator goal level outer (.int (.literal cs line) v) ∧
      v.toInt = Nat.ofDigitChars 10 cs 0 := by
  have ⟨_, _, hstarts⟩ := factor
  obtain ⟨p, hp⟩ := Parser.exists_feedAll hstarts
  obtain ⟨v, hword, hv⟩ := Decimal.exists_word? nonempty digits h
  obtain ⟨goal, level, outer, hfeed⟩ :=
    Parser.feed_intLiteral (t := .literal cs line) hp factor rfl
  let q : Parser := { p with
    first := p.first.or (some (.literal cs line))
    state := .operator goal level outer (.int (.literal cs line) v) }
  have hq : p.feed (.literal cs line) = .ok q := by
    rw [hfeed]
    simp only [Token.literal, hword]
    rfl
  have hall := Parser.feedAll_concat hp hq
  refine ⟨Parser.startsProgram_of_feedAll hall, q, goal, level, outer, v, ?_, rfl, hv⟩
  intro rest stop
  have := Parser.parse_append hall rest stop
  rwa [List.append_assoc, List.length_append] at this

theorem parse_literal_out_of_range (h : ¬ Nat.ofDigitChars 10 cs 0 < Decimal.wordLimit)
    (rest : List Token) (stop : TokenStop) :
    (TokenStream.parse ⟨ts ++ .literal cs line :: rest, stop⟩).result =
      .error (.refused ⟨line, .outOfRange (cs.map .char)⟩) := by
  have ⟨_, _, hstarts⟩ := factor
  obtain ⟨p, hp⟩ := Parser.exists_feedAll hstarts
  have hword : Decimal.word? (cs.map .char) = none := by
    rw [Decimal.word?_digits nonempty digits, if_neg h]
  obtain ⟨goal, level, outer, hfeed⟩ :=
    Parser.feed_intLiteral (t := .literal cs line) hp factor rfl
  simp only [Token.literal, hword] at hfeed
  rw [Parser.parse_append hp]
  simp [Parser.run, Token.literal, hfeed]

end

/-- Where a factor may start, digits make a literal that the parser takes exactly if their number
fits a signed word. Then the node has this number as its value, and its instruction shows the number
without leading zeros. Otherwise the parse ends there, with an error that shows the digits. Before
that, a reader gives the digits as one token. -/
theorem parse_literal {cs : List Char} (nonempty : cs ≠ [])
    (digits : ∀ c ∈ cs, c.isDigit = true) {ts : List Token} (factor : FactorMayFollow ts)
    (line : Int) :
    ((∃ rest stop x, (TokenStream.parse ⟨ts ++ .literal cs line :: rest, stop⟩).result = .ok x) ↔
      Nat.ofDigitChars 10 cs 0 < Decimal.wordLimit) ∧
    (Nat.ofDigitChars 10 cs 0 < Decimal.wordLimit → ∃ p goal level outer v,
      (∀ rest stop, TokenStream.parse ⟨ts ++ .literal cs line :: rest, stop⟩ =
        Parser.run p (ts.length + 1) stop rest) ∧
      p.state = .operator goal level outer (.int (.literal cs line) v) ∧
      v.toInt = Nat.ofDigitChars 10 cs 0 ∧
      ∀ f t, Node.lines f t (.int (.literal cs line) v) =
        ["mov rax, " ++ ((Decimal.unpadded cs).map .char : Text)]) ∧
    (¬ Nat.ofDigitChars 10 cs 0 < Decimal.wordLimit → ∃ e : SyntaxError,
      (∀ rest stop, (TokenStream.parse ⟨ts ++ .literal cs line :: rest, stop⟩).result =
        .error (.refused e)) ∧
      e.line = line ∧ e.message = "integer literal out of range: " ++ (cs.map .char : Text)) ∧
    ∀ (r : Reader) (before rest : List Char), r.At before (cs ++ rest) →
      (∀ c ∈ rest.head?, c.isDigit = false) →
      ∃ r', r.next = (.ok (.literal cs (1 + before.count '\n')), r') ∧
        r'.At (before ++ cs) rest := by
  refine ⟨⟨?_, ?_⟩, ?_, ?_, ?_⟩
  · rintro ⟨rest, stop, x, hx⟩
    apply Decidable.byContradiction
    intro h
    rw [parse_literal_out_of_range nonempty digits factor line h] at hx
    cases hx
  · intro h
    obtain ⟨⟨rest, x, hx⟩, _⟩ := parse_literal_in_range nonempty digits factor line h
    rw [List.append_assoc] at hx
    exact ⟨rest, .endOfFile line, x, hx.parse _⟩
  · intro h
    obtain ⟨_, p, goal, level, outer, v, hparse, hstate, hv⟩ :=
      parse_literal_in_range nonempty digits factor line h
    exact ⟨p, goal, level, outer, v, hparse, hstate, hv, Node.lines_literal digits hv _⟩
  · intro h
    exact ⟨_, parse_literal_out_of_range nonempty digits factor line h, rfl, rfl⟩
  · intro r before rest hr ends
    obtain ⟨r', hnext, hat⟩ :=
      Reader.At.next_lexeme (w := []) (by simp) (.int nonempty digits ends) hr
    rw [List.append_nil] at hnext hat
    exact ⟨r', hnext, hat⟩

/-- The largest literal with zeros before it, after `print`. -/
theorem parse_literal_largest :
    let print : Token := ⟨.keyword .printWord, "print", 1⟩
    let cs : List Char := "009223372036854775807".toList
    FactorMayFollow [print] ∧
    ∃ (p : Parser) (goal : Goal) (level : Level) (outer : List Level) (v : Int64),
      (∀ rest stop, TokenStream.parse ⟨[print] ++ .literal cs 1 :: rest, stop⟩ =
        p.run 2 stop rest) ∧
      p.state = .operator goal level outer (.int (.literal cs 1) v) ∧
      v.toInt = 9223372036854775807 ∧
      ∀ f t, Node.lines f t (.int (.literal cs 1) v) =
        [("mov rax, 9223372036854775807" : Text)] := by
  intro print cs
  have factor : FactorMayFollow [print] := (Parser.factorMayFollow_iff rfl).mpr rfl
  have digits : ∀ c ∈ cs, c.isDigit = true := List.all_eq_true.mp rfl
  have range : Nat.ofDigitChars 10 cs 0 < Decimal.wordLimit := by decide
  exact ⟨factor, (parse_literal (List.cons_ne_nil _ _) digits factor 1).2.1 range⟩

end TokenStream
end IntLang
