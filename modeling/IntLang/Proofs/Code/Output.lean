import IntLang.Proofs.Code.Extension
import IntLang.Proofs.Code.Symbols

/-! What a generator has written, after any number of programs. Every line of a program goes both to
the lines and to the output, where it stands behind a tab and before a newline. As no line and no
name of a source text has a newline of its own, the lines can be read back from the output. -/
namespace IntLang
namespace Generator

/-- What can be done with a generator. -/
inductive Action where
  | generate (p : Program)
  | line (text : Text)
  | leave
  | declareGlobal (name : Text) (line : Int)
  deriving Repr

def step (g : Generator) : Action → Generator
  | .generate p => (g.generate p).2
  | .line text => g.emitLines [text]
  | .leave => g.emitInstrs epilogue
  | .declareGlobal name line =>
    match g.table.declare name line with
    | .ok t => { g with table := t }
    | .error _ => g

/-- The generator after some actions. -/
def after (g : Generator) (as : List Action) : Generator := as.foldl step g

theorem table_emitProgram (g : Generator) (f : Frame) (p : Program) :
    (g.emitProgram f p).2.table = g.table := by
  unfold emitProgram
  dsimp only
  split <;> rfl

/-- A program leaves the globals of its first pass in the table, accepted or not. -/
theorem table_generate (g : Generator) (p : Program) :
    (g.generate p).2.table = (p.node.layout.after ⟨g.table, {}⟩).table := by
  unfold generate Node.layoutFrame Declaring.after
  cases p.node.layout ⟨g.table, {}⟩ with
  | error h s => rfl
  | ok u s =>
    cases hf : s.builder.finish.map Prod.fst with
    | error h => simp only [hf]
    | ok f => simp only [hf, table_emitProgram]

end Generator

theorem Scopes.wellFormed_of_table {t : Table} (h : t.WellFormed) : Scopes.WellFormed ⟨t, {}⟩ :=
  ⟨h, ⟨by simp, by simp⟩, by simp⟩

theorem Node.after_layout_extends (n : Node) (s : Scopes) :
    s.Extends (fun _ => True) (n.layout.after s) := by
  rw [n.layout_eq]
  refine actAll_extends ?_ s
  intro m _
  cases m <;> trivial

namespace Generator

theorem wellFormed_step {g : Generator} (h : g.table.WellFormed) (a : Action) :
    (g.step a).table.WellFormed := by
  cases a with
  | generate p =>
    rw [step, table_generate]
    exact ((Scopes.wellFormed_of_table h).extends (p.node.after_layout_extends _)).table
  | line text => exact h
  | leave => exact h
  | declareGlobal name line =>
    rw [step]
    cases hd : g.table.declare name line with
    | error e => exact h
    | ok t => exact h.declare hd

theorem wellFormed_after {g : Generator} (h : g.table.WellFormed) (as : List Action) :
    (g.after as).table.WellFormed := by
  induction as generalizing g with
  | nil => exact h
  | cons a as ih => exact ih (wellFormed_step h a)

theorem output_generate {g g' : Generator} {p : Program} {text : Text}
    (h : g.generate p = (.ok text, g')) : g'.output = text := by
  unfold generate at h
  split at h
  · unfold emitProgram at h
    dsimp only at h
    split at h
    · obtain ⟨htext, rfl⟩ := Prod.mk.inj h
      exact Except.ok.inj htext
    · cases h
    · cases h
  · cases h

end Generator

/-- All lines of an assembly text, for these globals and these lines of code. -/
def listing (globals : List Global) (code : List Text) : List Text :=
  openingLines ++ (formatLine :: globals.map Global.definitionLine ++
    (middleLines ++ code.map (("\t" : Text) ++ ·)))

theorem assemblyLines_eq (t : Table) (is : List Instr) :
    assemblyLines t is = listing t.globals (is.map Instr.text) := by
  rw [assemblyLines, listing, List.map_map]
  rfl

/-- The lines of code of an assembly text: those of the code section after its label, without
their tabs. -/
def Text.codeLines (t : Text) : List Text :=
  ((t.sectionLines ".text").drop 1).dropLast.map (List.drop 1)

/-- All lines of a program: its body stands between the prologue of its frame and the closing. -/
def Frame.around (f : Frame) (body : List Text) : List Text :=
  entryLines ++ f.roomLines ++ body ++ exitLines

/-- An accepted program adds its lines to those before, and the listing of them to the output. -/
theorem Generator.generate_listing {g g' : Generator} {p : Program} {text : Text}
    (h : g.generate p = (.ok text, g')) :
    ∃ f body, p.node.layoutFrame g.table = (.ok f, g'.table) ∧
      g'.lines = g.lines ++ f.around body ∧
      text = g.output ++ (listing g'.table.globals (f.around body)).flatMap Text.ended := by
  obtain ⟨s, is, hs, htable, his, hlines, htext⟩ := generate_eq_ok h
  have hcode : is.map Instr.text =
      s.frame.around ((p.node.emit s.frame s.table).instrs.map Instr.text) := by
    have hclosing : closing.map Instr.text = exitLines := rfl
    rw [his, Frame.around, List.map_append, List.map_append, prologue_text, hclosing,
      ← List.append_assoc]
  refine ⟨s.frame, (p.node.emit s.frame s.table).instrs.map Instr.text, ?_, ?_, ?_⟩
  · rw [htable]
    exact Node.layoutFrame_of_layout hs
  · rw [hlines, hcode]
  · rw [htext, htable, ← hcode, List.append_assoc, text_eq, assemblyLines_eq]

section

variable {g g' : Generator} {p : Program} {ss : List Stmt} (hss : p.stmts = ss.map Stmt.node)
  {text : Text} (hg : g.generate p = (.ok text, g'))
include hss hg

/-- The names that a program adds to the table are among its own. -/
theorem Generator.named_generate {P : Text → Prop} (hold : ∀ e ∈ g.table.globals, P e.name)
    (hnames : ∀ st ∈ ss, ∀ id ∈ st.idents, P id.name) : ∀ e ∈ g'.table.globals, P e.name := by
  obtain ⟨s, hs, htable, _⟩ := generate_stmts hss hg
  have hext : Scopes.Extends P ⟨g.table, {}⟩ s :=
    (Node.program .zero (ss.map Stmt.node)).layout_extends (declares_of_idents hnames) hs
  rw [htable]
  exact hext.named hold

/-- With labels as the table gives them, a program is written in usual instructions. -/
theorem Generator.usual_generate (hwf : g.table.WellFormed) :
    ∃ is : List Instr, (∀ i ∈ is, i.Usual) ∧ g'.lines = g.lines ++ is.map Instr.text ∧
      g'.table.WellFormed := by
  obtain ⟨s, hs, htable, hlines, _⟩ := generate_stmts hss hg
  have hext : Scopes.Extends (fun _ => True) ⟨g.table, {}⟩ s := by
    refine (Node.program .zero (ss.map Stmt.node)).layout_extends (fun m _ => ?_) hs
    cases m <;> trivial
  have hs' : s.WellFormed := (Scopes.wellFormed_of_table hwf).extends hext
  exact ⟨s.instrs ss, instrs_usual hs hs', hlines, htable ▸ hs'.table⟩

end

theorem Instr.text_oneLine {i : Instr} (h : i.Usual) : .char '\n' ∉ i.text := by
  have hline := codeLine_notMem (g := .char '\n') h rfl rfl (by decide)
  intro hmem
  exact hline (List.mem_append_right _ hmem)

/-- Where no name has a newline, the listing is read back line by line. -/
theorem Text.codeLines_listing {t : Table} (ht : t.WellFormed)
    (hnames : ∀ e ∈ t.globals, .char '\n' ∉ e.name) {is : List Instr} (his : ∀ i ∈ is, i.Usual) :
    codeLines ((listing t.globals (is.map Instr.text)).flatMap ended) = is.map Instr.text := by
  have hlines := lines_flatMap (assemblyLines_oneLine ht hnames his)
  rw [← assemblyLines_eq, codeLines, sectionLines_text ht hlines, List.drop_succ_cons,
    List.drop_zero, List.dropLast_concat, List.map_map]
  rfl

/-- The lines of a generator and its output agree. An accepted program adds some lines, which start
with the prologue and end with the closing, and to the output it adds the listing of the globals and
of these lines, and nothing else. If all names are read from a source, no line and no name has a
newline, so the lines of a generator with no output yet can be read back from what it gives. -/
theorem TokenStream.listing_of_generate (tokens : TokenStream) {p : Program}
    (hp : tokens.parse.result = .ok p) :
    (∀ (g g' : Generator) (text : Text), g.generate p = (.ok text, g') → ∃ f body,
      p.node.layoutFrame g.table = (.ok f, g'.table) ∧
      g'.lines = g.lines ++ f.around body ∧
      text = g.output ++ (listing g'.table.globals (f.around body)).flatMap Text.ended ∧
      g'.output = text) ∧
    ∀ (as : List Generator.Action) (g' : Generator) (text : Text) (code : List Text),
      let g := ({} : Generator).after as
      g.generate p = (.ok text, g') → g'.lines = g.lines ++ code →
      (∀ e ∈ g.table.globals, e.name.IsRead) →
      (∀ t ∈ tokens.tokens, t.kind = .identifier → t.lexeme.IsRead) →
      (∀ line ∈ code, .char '\n' ∉ line) ∧ (∀ e ∈ g'.table.globals, .char '\n' ∉ e.name) ∧
        (g.output = [] → text.codeLines = code) := by
  constructor
  · intro g g' text hg
    obtain ⟨f, body, hframe, hlines, htext⟩ := Generator.generate_listing hg
    exact ⟨f, body, hframe, hlines, htext, Generator.output_generate hg⟩
  · intro as g' text code g hg hcode hold hread
    obtain ⟨ss, hss, written⟩ := exists_stmts_of_parse hp
    have hwf : g.table.WellFormed := Generator.wellFormed_after ⟨by simp, by simp⟩ as
    obtain ⟨is, his, hlines, hwf'⟩ := Generator.usual_generate hss hg hwf
    obtain rfl : code = is.map Instr.text := List.append_cancel_left (hcode.symm.trans hlines)
    have hnames : ∀ e ∈ g'.table.globals, .char '\n' ∉ e.name := by
      have hread' : ∀ e ∈ g'.table.globals, e.name.IsRead := by
        refine Generator.named_generate hss hg hold ?_
        intro st hst id hid
        obtain ⟨t, ht, hk, rfl⟩ := written st hst id hid
        exact hread t ht hk
      exact fun e he => (hread' e he).oneLine
    refine ⟨?_, hnames, ?_⟩
    · intro line hline
      obtain ⟨i, hi, rfl⟩ := List.mem_map.mp hline
      exact Instr.text_oneLine (his i hi)
    · intro houtput
      obtain ⟨f, body, _, hlines', htext⟩ := Generator.generate_listing hg
      have hbody : f.around body = is.map Instr.text :=
        List.append_cancel_left (hlines'.symm.trans hlines)
      rw [htext, houtput, List.nil_append, hbody]
      exact Text.codeLines_listing hwf' hnames his

/-- Where `b` is a global already, the lines of `local int a = b; print a;` are read back. -/
theorem TokenStream.listing_of_generate_local :
    let local₁ : Token := ⟨.keyword .localWord, "local", 1⟩
    let print₁ : Token := ⟨.keyword .printWord, "print", 1⟩
    let a : Ident := ⟨⟨.identifier, "a", 1⟩, "a"⟩
    let b : Ident := ⟨⟨.identifier, "b", 1⟩, "b"⟩
    let p : Program := ⟨local₁, [.decl local₁ .localVar a (some (.ident b)),
      .print print₁ (.ident a)]⟩
    let g := ({} : Generator).after [.declareGlobal "b" 7]
    ∃ text g' body, g.generate p = (.ok text, g') ∧
      g'.table.globals = [⟨"b", "g_b", 7⟩] ∧
      g'.lines = entryLines ++ [("sub rsp, 16" : Text)] ++ body ++ exitLines ∧
      text = (listing g'.table.globals g'.lines).flatMap Text.ended ∧
      text.codeLines = g'.lines ∧ ∀ line ∈ g'.lines, .char '\n' ∉ line := by
  intro local₁ print₁ a b p g
  let semicolon : Token := ⟨.char ';', ";", 1⟩
  let tokens : TokenStream := ⟨[local₁, ⟨.keyword .intWord, "int", 1⟩, a.tok, ⟨.char '=', "=", 1⟩,
    b.tok, semicolon, print₁, a.tok, semicolon], .endOfFile 1⟩
  have hp : tokens.parse.result = .ok p := rfl
  have isRead {c : Char} (start : Charset.wordStart c = true)
      (hc : ∀ k : Keyword, [Glyph.char c] ≠ k.spelling) : Text.IsRead [.char c] := by
    have lexeme : Lexeme ([] : List Char).head? [c] .identifier :=
      .word start (by simpa using Charset.wordPart_of_wordStart start) nofun (.identifier hc)
    obtain ⟨r', hr, _⟩ := (Reader.at_ofText [c]).next_lexeme (w := []) nofun lexeme
    exact ⟨_, r', _, hr, rfl, rfl⟩
  have ha : Text.IsRead "a" := isRead rfl fun k => by cases k <;> decide
  have hb : Text.IsRead "b" := isRead rfl fun k => by cases k <;> decide
  obtain ⟨text, g', hg, htable⟩ : ∃ text g', g.generate p = (.ok text, g') ∧
      g'.table = ⟨[⟨"b", "g_b", 7⟩]⟩ := ⟨_, _, rfl, rfl⟩
  obtain ⟨hlisting, hread⟩ := listing_of_generate tokens hp
  obtain ⟨f, body, hframe, hlines, htext, _⟩ := hlisting g g' text hg
  have hf : p.node.layoutFrame g.table = (.ok ⟨[⟨"a", -8, 1⟩], true⟩, g.table) := rfl
  obtain rfl := Except.ok.inj (Prod.mk.inj (hf.symm.trans hframe)).1
  have hlines' : g'.lines = Frame.around ⟨[⟨"a", -8, 1⟩], true⟩ body := hlines
  rw [← hlines'] at htext
  have hold : ∀ e ∈ g.table.globals, e.name.IsRead := List.forall_mem_singleton.mpr hb
  obtain ⟨hcode, _, hback⟩ := hread [.declareGlobal "b" 7] g' text g'.lines hg rfl hold <| by
    simp [tokens, a, b, semicolon, Kind.char, ha, hb]
  exact ⟨text, g', body, hg, by rw [htable], hlines', htext, hback rfl, hcode⟩

end IntLang
