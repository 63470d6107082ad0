import IntLang.Compile
import IntLang.Proofs.Code.Listing
import IntLang.Proofs.Scope.Rule
import IntLang.Proofs.Text.Newlines
import IntLang.Proofs.Tree.Prefix

/-! Where errors are. What is wrong with a source text is told to the user together with the line of
a token, so that the line is one of the text. -/
namespace IntLang

theorem Cut.line_bounds {before text : List Char} {ts : List Token} (h : Cut before text ts) :
    ∀ t ∈ ts, 1 ≤ t.line ∧ t.line ≤ 1 + ((before ++ text).count '\n' : Int) := by
  induction h with
  | blanks => simp
  | token _ _ _ ih =>
    intro t ht
    rcases List.mem_cons.mp ht with rfl | ht
    · simp only [List.count_append]
      omega
    · simpa using ih t ht

theorem Reader.at_ofBytes (source : List UInt8) :
    At (ofBytes source) [] (Utf8.decode source).characters :=
  at_text _

/-- All tokens of some bytes, with the end of file as the last of them, can be had by calling `next`
over and over, and their lines are lines of the text. -/
theorem Reader.scan_ofBytes (source : List UInt8) : ∃ ts line,
    (ofBytes source).scan.1 = ⟨ts, .endOfFile line⟩ ∧ ∀ t ∈ ts ++ [.endOfFile line],
      (∃ i, (ofBytes source).nth i = .ok t) ∧ 1 ≤ t.line ∧ t.line ≤ 1 + (source.count 10 : Int) := by
  let text := (Utf8.decode source).characters
  obtain ⟨ts, hts⟩ := exists_cut [] text
  have hat := at_ofBytes source
  have hcount : (([] ++ text).count '\n' : Int) = source.count 10 := by
    rw [List.nil_append, Utf8.count_decode]
  have hnth := hat.nth_cut hts
  refine ⟨ts, _, hat.scan_cut hts, ?_⟩
  intro t ht
  rcases List.mem_append.mp ht with ht | ht
  · obtain ⟨i, hi⟩ := List.mem_iff_getElem?.mp ht
    have hbounds := hts.line_bounds t ht
    rw [hcount] at hbounds
    exact ⟨⟨i, by rw [hnth, hi, Option.getD_some]⟩, hbounds⟩
  · rw [List.mem_singleton.mp ht]
    refine ⟨⟨ts.length, by rw [hnth, List.getElem?_eq_none (Nat.le_refl _), Option.getD_none]⟩, ?_⟩
    simp only [Token.endOfFile, hcount]
    omega

/-- A parse that meets no read failure fails only over a token, whose line it tells. -/
theorem Parser.run_eq_error {p : Parser} {taken : Nat} {line : Int} {ts : List Token}
    {e : ParseError} (h : (p.run taken (.endOfFile line) ts).result = .error e) :
    ∃ s, e = .refused s ∧ ∃ t ∈ ts ++ [.endOfFile line], s.line = t.line := by
  have hfinish {p : Parser} {t : Token} (hp : p.finish t = .error e) :
      ∃ s, e = .refused s ∧ s.line = t.line := by
    unfold finish at hp
    split at hp
    · cases hp
    · cases hp
      exact ⟨_, rfl, rfl⟩
  induction ts generalizing p taken with
  | nil =>
    obtain ⟨s, rfl, hs⟩ := hfinish h
    exact ⟨s, rfl, _, List.mem_cons_self, hs⟩
  | cons t ts ih =>
    rw [run] at h
    split at h
    · obtain ⟨s, rfl, hs⟩ := hfinish h
      exact ⟨s, rfl, t, List.mem_cons_self, hs⟩
    · split at h
      · rename_i s hs
        cases h
        refine ⟨s, rfl, t, List.mem_cons_self, ?_⟩
        rcases step_eq_error (feed_eq_error.mp hs) with ⟨rfl, _⟩ | ⟨rfl, _⟩ <;> rfl
      · obtain ⟨s, he, u, hu, hs⟩ := ih h
        exact ⟨s, he, u, List.mem_cons_of_mem t hu, hs⟩

theorem Expr.ident_of_mem_namings {e : Expr} {n : Naming} (h : n ∈ e.node.namings) :
    n.ident ∈ e.idents := by
  rw [namings_node] at h
  obtain ⟨id, hid, rfl⟩ := List.mem_map.mp h
  exact hid

theorem Stmt.ident_of_mem_namings {st : Stmt} {n : Naming} (h : n ∈ st.node.namings) :
    n.ident ∈ st.idents := by
  cases st with
  | declare tok storage name init =>
    cases init with
    | none =>
      rw [List.mem_singleton.mp h]
      exact List.mem_cons_self
    | some init =>
      rcases List.mem_append.mp h with h | h
      · exact List.mem_cons_of_mem _ (Expr.ident_of_mem_namings h)
      · rw [List.mem_singleton.mp h]
        exact List.mem_cons_self
  | assign tok target value =>
    rcases List.mem_cons.mp h with rfl | h
    · exact List.mem_cons_self
    · exact List.mem_cons_of_mem _ (Expr.ident_of_mem_namings h)
  | print tok value => exact Expr.ident_of_mem_namings h
  | ret tok value =>
    cases value with
    | none => cases h
    | some value => exact Expr.ident_of_mem_namings h

namespace TokenStream

variable {tokens : TokenStream} {p : Program} (hp : tokens.parse.result = .ok p)

include hp

/-- Every use and declaration in a parsed program is an identifier of the input. -/
theorem ident_writtenIn {n : Naming} (hn : n ∈ p.node.namings) :
    n.ident.WrittenIn tokens.tokens := by
  obtain ⟨ss, hss, written⟩ := exists_stmts_of_parse hp
  have hmem : ∃ st ∈ ss, n ∈ st.node.namings := by
    rw [Program.node, hss, Node.namings] at hn
    clear hss written
    induction ss with
    | nil => cases hn
    | cons st ss ih =>
      rcases List.mem_append.mp hn with hn | hn
      · exact ⟨st, List.mem_cons_self, hn⟩
      · obtain ⟨st', hst', hn⟩ := ih hn
        exact ⟨st', List.mem_cons_of_mem st hst', hn⟩
  obtain ⟨st, hst, hn⟩ := hmem
  exact written st hst _ (Stmt.ident_of_mem_namings hn)

/-- A parsed program is compiled, or refused over one of its identifiers. -/
theorem generate_located :
    (∃ text, (({} : Generator).generate p).1 = .ok text) ∨
      ∃ e, (({} : Generator).generate p).1 =
          .error (.error (.during "preprocess locals" (.inScope e))) ∧
        ∃ t ∈ tokens.tokens, e.line = t.line := by
  rcases layout_ofNamings hp with ⟨_, hs⟩ | ⟨before, n, after, e, hns, _, hbreach, hs⟩
  · have hhalt := (regular_of_parse hp).emit_halt hs
    exact .inl ⟨_, by rw [Generator.generate_of_layout hs hhalt]⟩
  · have hn : n ∈ p.node.namings := by simp [hns]
    obtain ⟨t, ht, _, hid⟩ := ident_writtenIn hp hn
    refine .inr ⟨e, by rw [Generator.generate_of_rejected hs], t, ht, ?_⟩
    rw [hbreach.line, hid]

end TokenStream

/-- A known line stands between the file and the message. -/
theorem Diagnostic.text_of_line {file message : Text} {line : Int} (h : 1 ≤ line) :
    text ⟨file, line, message⟩ = file ++ ":" ++ Decimal.ofInt line ++ ": " ++ message := by
  have hne : line ≠ 0 := by omega
  simp [text, hne]

/-- Bytes are compiled, or else refused with an error of the program, in its syntax or in its names.
What the user is told of it is the file, the line and the message, and this line is that of a token,
so one of the lines of the text. -/
theorem compileText_located (source : List UInt8) :
    (∃ text, compileText source = .ok text) ∨
    ∃ (e : Error) (line : Int) (message : Text), compileText source = .error (.error e) ∧
      ((∃ s, e.syntaxError? = some s ∧ e.semanticError? = none ∧ "parse: " <+: e.text ∧
          line = s.line ∧ message = "syntax error: " ++ s.message) ∨
        ∃ s, e.semanticError? = some s ∧ e.syntaxError? = none ∧
          "generate: preprocess locals: " <+: e.text ∧
          line = s.line ∧ message = s.name ++ ": " ++ s.message) ∧
      (∀ file, Diagnostic.ofError file e = ⟨file, line, message⟩ ∧
        (Diagnostic.ofError file e).text =
          file ++ ":" ++ Decimal.ofInt line ++ ": " ++ message) ∧
      (∃ i t, (Reader.ofBytes source).nth i = .ok t ∧ t.line = line) ∧
      1 ≤ line ∧ line ≤ 1 + source.count 10 := by
  obtain ⟨ts, last, hscan, hts⟩ := Reader.scan_ofBytes source
  have hplace {line : Int} (h : ∃ t ∈ ts ++ [.endOfFile last], line = t.line) :
      (∃ i t, (Reader.ofBytes source).nth i = .ok t ∧ t.line = line) ∧
        1 ≤ line ∧ line ≤ 1 + source.count 10 := by
    obtain ⟨t, ht, rfl⟩ := h
    obtain ⟨⟨i, hi⟩, hbounds⟩ := hts t ht
    exact ⟨⟨i, t, hi, rfl⟩, hbounds⟩
  have hparse : (Reader.ofBytes source).parse = TokenStream.parse ⟨ts, .endOfFile last⟩ := by
    rw [Reader.parse, hscan]
  rw [compileText, Reader.compile, hparse]
  cases hresult : (TokenStream.parse ⟨ts, .endOfFile last⟩).result with
  | error e =>
    obtain ⟨s, rfl, ht⟩ := Parser.run_eq_error hresult
    obtain ⟨hmem, hlow, hhigh⟩ := hplace ht
    refine .inr ⟨.during "parse" (.inSyntax s), s.line, "syntax error: " ++ s.message, rfl, ?_, ?_,
      hmem, hlow, hhigh⟩
    · exact .inl ⟨s, rfl, rfl, ⟨s.text, rfl⟩, rfl, rfl⟩
    · exact fun file => ⟨rfl, Diagnostic.text_of_line hlow⟩
  | ok p =>
    rcases TokenStream.generate_located hresult with ⟨text, hg⟩ | ⟨s, hg, t, ht, hline⟩
    · exact .inl ⟨text, by simp only [hg]⟩
    · obtain ⟨hmem, hlow, hhigh⟩ := hplace ⟨t, List.mem_append_left _ ht, hline⟩
      refine .inr ⟨.during "generate" (.during "preprocess locals" (.inScope s)), s.line,
        s.name ++ ": " ++ s.message, by simp only [hg, Fault.during], ?_, ?_, hmem, hlow, hhigh⟩
      · exact .inr ⟨s, rfl, rfl, ⟨s.text, rfl⟩, rfl, rfl⟩
      · exact fun file => ⟨rfl, Diagnostic.text_of_line hlow⟩

end IntLang
