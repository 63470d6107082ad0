import IntLang.Proofs.Code.Renaming
import IntLang.Proofs.Report.Located

/-! Blanks and line breaks. Two texts with the same tokens on other lines are both relabellings of
one stream, whose tokens are numbered, so a line reaches nothing but the lines of errors and the
comments on globals. -/
namespace IntLang

/-- A token without its line. -/
def Token.face (t : Token) : Kind × Text := (t.kind, t.lexeme)

namespace TokenStream

/-- Tokens with their numbers as lines. -/
def ofFaces (faces : List (Kind × Text)) : TokenStream :=
  ⟨faces.mapIdx fun i face => ⟨face.1, face.2, i⟩, .endOfFile faces.length⟩

/-- Every stream with an end is its numbered one on other lines. -/
theorem exists_relabel_ofFaces (ts : List Token) (last : Int) : ∃ ρ : Relabelling, ρ.name = id ∧
    (ofFaces (ts.map Token.face)).relabel ρ = ⟨ts, .endOfFile last⟩ := by
  let ρ : Relabelling := { line := fun i => (ts[i.toNat]?.map Token.line).getD last }
  have htokens : (ofFaces (ts.map Token.face)).tokens.map (Token.relabel ρ) = ts := by
    apply List.ext_getElem?
    intro i
    rw [ofFaces, List.getElem?_map, List.getElem?_mapIdx, List.getElem?_map]
    cases hi : ts[i]? with
    | none => rfl
    | some t => simp [Token.relabel, Token.face, ρ, hi]
  have hlast : ρ.line (ts.map Token.face).length = last := by simp [ρ]
  refine ⟨ρ, rfl, ?_⟩
  rw [relabel, htokens, ofFaces, TokenStop.relabel, hlast]

end TokenStream

/-- Naming number `k` of the program with these tokens is written as token number `i`. The numbers
are kept as lines, since an identifier knows the line of its token. -/
def NamedAt (tokens : List Token) (k i : Nat) : Prop :=
  ∃ p n, (TokenStream.ofFaces (tokens.map Token.face)).parse.result = .ok p ∧
    p.node.namings[k]? = some n ∧ n.ident.tok.line = i

/-- The first pass over a program stops at its naming number `k`, which has this identifier. -/
def Program.StopsAt (p : Program) (k : Nat) (id : Ident) (e : SemanticError) : Prop :=
  ∃ n s s', p.node.namings[k]? = some n ∧ n.ident = id ∧
    actAll (p.node.namings.take k) ⟨{}, {}⟩ = .ok () s ∧ n.act s = .error (.rejected e) s'

/-- A run that fails does so at one of the namings, after all those before it. -/
theorem actAll_stops {ns : List Naming} {s s' : Scopes} {h : Halt}
    (he : actAll ns s = .error h s') : ∃ (k : Nat) (n : Naming) (s₁ : Scopes), ns[k]? = some n ∧
      actAll (ns.take k) s = .ok () s₁ ∧ n.act s₁ = .error h s' := by
  induction ns generalizing s with
  | nil => cases he
  | cons n ns ih =>
    simp only [actAll, Bind.bind, EStateM.bind] at he
    cases hn : n.act s with
    | error h₁ s₁ =>
      rw [hn] at he
      exact ⟨0, n, s, rfl, rfl, by rw [hn]; exact he⟩
    | ok u s₁ =>
      rw [hn] at he
      obtain ⟨k, m, s₂, hm, hbefore, hact⟩ := ih he
      refine ⟨k + 1, m, s₂, hm, ?_, hact⟩
      simp only [List.take_succ_cons, actAll, Bind.bind, EStateM.bind, hn]
      exact hbefore

theorem Relabelling.Respects.stopsAt {ρ : Relabelling} {p : Program} (hρ : ρ.Respects p.node)
    {k : Nat} {id : Ident} {e : SemanticError} (h : p.StopsAt k id e) :
    (p.relabel ρ).StopsAt k (id.relabel ρ) (e.relabel ρ) := by
  obtain ⟨n, s, s', hn, rfl, hbefore, hact⟩ := h
  have hmem : n ∈ p.node.namings := List.mem_of_getElem? hn
  have hnames : ∀ m ∈ p.node.namings.take k, m.ident.name ∈ {x | x ∈ p.node.names} :=
    fun m hm => Node.mem_names (List.mem_of_mem_take hm)
  have hfixed : ∀ id ∈ declaredIn .globalVar (p.node.namings.take k), ρ.name id.name = id.name :=
    fun id hid => hρ.fixed id (((List.take_sublist k _).filterMap _).subset hid)
  have hwithin := (Scopes.within_empty _).actAll hnames hbefore
  refine ⟨n.relabel ρ, s.relabel ρ, s'.relabel ρ, ?_, ?_, ?_, ?_⟩
  · rw [p.node_relabel, Node.namings_relabel, List.getElem?_map, hn, Option.map_some]
  · cases n <;> rfl
  · have hrun := actAll_relabel hρ.injective (Scopes.within_empty _) hnames hfixed
    rw [p.node_relabel, Node.namings_relabel, ← List.map_take]
    rw [hbefore] at hrun
    exact hrun
  · rw [n.act_relabel hρ.injective hwithin (Node.mem_names hmem) ?_, hact]
    · rfl
    · rintro id rfl
      exact hρ.fixed id (List.mem_filterMap.mpr ⟨_, hmem, by simp⟩)

/-- The bytes are compiled to a text, and the generator ends like this. -/
structure CompilesTo (source : List UInt8) (text : Text) (g : Generator) : Prop where
  result : compileText source = .ok text
  program : ∃ p, (Reader.ofBytes source).parse.result = .ok p ∧
    ({} : Generator).generate p = (.ok text, g)

/-- The bytes are refused over the name of token number `i`, which is naming number `k`. -/
structure RefusedAt (source : List UInt8) (k i : Nat) (e : SemanticError) : Prop where
  result : compileText source =
    .error (.error (.during "generate" (.during "preprocess locals" (.inScope e))))
  program : ∃ p id, (Reader.ofBytes source).parse.result = .ok p ∧ p.StopsAt k id e ∧
    (Reader.ofBytes source).scan.1.tokens[i]? = some id.tok
  index : NamedAt (Reader.ofBytes source).scan.1.tokens k i

theorem Relabelling.respects_of_name {ρ : Relabelling} (h : ρ.name = id) (n : Node) :
    ρ.Respects n := by
  refine ⟨?_, ?_⟩
  · rw [h]
    exact Set.injOn_id _
  · intro id _
    rw [h]
    rfl

section

variable {source : List UInt8} {faces : List (Kind × Text)} {ρ : Relabelling} {p : Program}
  {s : Scopes} (hscan : (Reader.ofBytes source).scan.1 = (TokenStream.ofFaces faces).relabel ρ)
include hscan

theorem parse_of_scan :
    (Reader.ofBytes source).parse.result =
      relabelParse ρ (TokenStream.ofFaces faces).parse.result := by
  rw [Reader.parse, hscan, TokenStream.parse_relabel]

theorem compileText_of_refused {e : SyntaxError}
    (h : (TokenStream.ofFaces faces).parse.result = .error (.refused e)) : compileText source =
      .error (.error (.during "parse" (.inSyntax (e.relabel ρ)))) := by
  rw [compileText, Reader.compile, parse_of_scan hscan, h]
  rfl

theorem compilesTo_of_layout (hp : (TokenStream.ofFaces faces).parse.result = .ok p)
    (hρ : ρ.Respects p.node) (hs : p.node.layout ⟨{}, {}⟩ = .ok () s) :
    let text := Generator.preamble (s.relabel ρ).table ++ (s.lines p).flatMap Generator.lineText
    CompilesTo source text ⟨(s.relabel ρ).table, text, s.lines p⟩ := by
  have hparse : (Reader.ofBytes source).parse.result = .ok (p.relabel ρ) := by
    rw [parse_of_scan hscan, hp]
    rfl
  have hgen := hρ.generate (TokenStream.regular_of_parse hp) hs
  refine ⟨?_, _, hparse, hgen⟩
  rw [compileText, Reader.compile, hparse]
  simp only [hgen]

/-- The place of the error is that of the numbered tokens. -/
theorem refusedAt_of_layout (hfaces : (Reader.ofBytes source).scan.1.tokens.map Token.face = faces)
    (hp : (TokenStream.ofFaces faces).parse.result = .ok p) (hρ : ρ.Respects p.node)
    {e : SemanticError} (hs : p.node.layout ⟨{}, {}⟩ = .error (.rejected e) s) {k i : Nat}
    {id : Ident} (hk : p.StopsAt k id e) (hi : (TokenStream.ofFaces faces).tokens[i]? = some id.tok)
    (hline : id.tok.line = i) : RefusedAt source k i (e.relabel ρ) := by
  have hparse : (Reader.ofBytes source).parse.result = .ok (p.relabel ρ) := by
    rw [parse_of_scan hscan, hp]
    rfl
  refine ⟨?_, ⟨_, id.relabel ρ, hparse, hρ.stopsAt hk, ?_⟩, ?_⟩
  · rw [compileText, Reader.compile, hparse]
    simp only [hρ.generate_rejected hs]
    rfl
  · rw [hscan, TokenStream.relabel, List.getElem?_map, hi]
    rfl
  · obtain ⟨n, _, _, hn, rfl, _⟩ := hk
    exact ⟨p, n, by rw [hfaces, hp], hn, hline⟩

end

/-- All that stands before the definitions of globals. -/
def dataHeader : Text :=
  headerText ++ ("\n\tsection .data\n" ++ printFormat ++ ":\tdb \"%ld\", 10, 0\n")

theorem Generator.preamble_append (t : Table) (code : Text) : preamble t ++ code =
    dataHeader ++ t.globals.flatMap Global.definition ++ (stackNote ++ textHeader ++ code) := by
  simp only [preamble, Table.dataText, dataHeader, List.append_assoc]

/-- Where the first pass over numbered tokens fails, it stops at one of them. -/
theorem TokenStream.exists_stopsAt {faces : List (Kind × Text)} {p : Program} {e : SemanticError}
    {s : Scopes} (hp : (ofFaces faces).parse.result = .ok p)
    (hs : p.node.layout ⟨{}, {}⟩ = .error (.rejected e) s) :
    ∃ (k i : Nat) (id : Ident), p.StopsAt k id e ∧ (ofFaces faces).tokens[i]? = some id.tok ∧
      id.tok.line = i := by
  rw [p.node.layout_eq] at hs
  obtain ⟨k, n, s₁, hn, hbefore, hact⟩ := actAll_stops hs
  obtain ⟨t, ht, _, hid⟩ := ident_writtenIn hp (List.mem_of_getElem? hn)
  obtain ⟨i, hi⟩ := List.mem_iff_getElem?.mp ht
  have hline : t.line = i := by
    rw [ofFaces, List.getElem?_mapIdx] at hi
    obtain ⟨face, _, rfl⟩ := Option.map_eq_some_iff.mp hi
    rfl
  exact ⟨k, i, ⟨t, t.lexeme⟩, ⟨n, s₁, s, hn, hid, hbefore, hact⟩, hi, hline⟩

/-- Two texts with the same tokens on whatever lines have the same fate. Both are compiled, to texts
that differ at most in the lines of globals, and to the same instructions. Or both are refused, with
the same message about their syntax or over the same name at the same token. -/
theorem compileText_of_faces {a b : List UInt8}
    (h : (Reader.ofBytes a).scan.1.tokens.map Token.face =
      (Reader.ofBytes b).scan.1.tokens.map Token.face) :
    (∃ text₁ text₂ g₁ g₂ back, CompilesTo a text₁ g₁ ∧ CompilesTo b text₂ g₂ ∧
      g₁.lines = g₂.lines ∧
      text₁ = dataHeader ++ g₁.table.globals.flatMap Global.definition ++ back ∧
      text₂ = dataHeader ++ g₂.table.globals.flatMap Global.definition ++ back ∧
      (g₁.table.globals.map fun g => (g.name, g.label)) =
        g₂.table.globals.map fun g => (g.name, g.label)) ∨
    (∃ e₁ e₂, compileText a = .error (.error (.during "parse" (.inSyntax e₁))) ∧
      compileText b = .error (.error (.during "parse" (.inSyntax e₂))) ∧
      e₁.message = e₂.message) ∨
    ∃ k i e₁ e₂, RefusedAt a k i e₁ ∧ RefusedAt b k i e₂ ∧ e₁.name = e₂.name := by
  obtain ⟨ts₁, last₁, hscan₁, _⟩ := Reader.scan_ofBytes a
  obtain ⟨ts₂, last₂, hscan₂, _⟩ := Reader.scan_ofBytes b
  obtain ⟨ρ₁, hname₁, hρ₁⟩ := TokenStream.exists_relabel_ofFaces ts₁ last₁
  obtain ⟨ρ₂, hname₂, hρ₂⟩ := TokenStream.exists_relabel_ofFaces ts₂ last₂
  -- both streams are relabellings of the numbered tokens that they share
  let faces := ts₁.map Token.face
  have hfaces₁ : (Reader.ofBytes a).scan.1.tokens.map Token.face = faces := by rw [hscan₁]
  have hfaces₂ : (Reader.ofBytes b).scan.1.tokens.map Token.face = faces := by rw [← h, hfaces₁]
  have hfaces : ts₂.map Token.face = faces := by rw [← hfaces₂, hscan₂]
  rw [← hρ₁] at hscan₁
  rw [← hρ₂, hfaces] at hscan₂
  cases hparse : (TokenStream.ofFaces faces).parse.result with
  | error e =>
    obtain ⟨e, rfl, _⟩ := Parser.run_eq_error hparse
    refine .inr (.inl ⟨_, _, compileText_of_refused hscan₁ hparse,
      compileText_of_refused hscan₂ hparse, ?_⟩)
    rw [SyntaxError.message_relabel ρ₁ hname₁, SyntaxError.message_relabel ρ₂ hname₂]
  | ok p =>
    have hp₁ := Relabelling.respects_of_name hname₁ p.node
    have hp₂ := Relabelling.respects_of_name hname₂ p.node
    rcases TokenStream.layout_ofNamings hparse with ⟨_, hs⟩ | ⟨_, _, _, e, _, _, _, hs⟩
    · refine .inl ⟨_, _, _, _, _, compilesTo_of_layout hscan₁ hparse hp₁ hs,
        compilesTo_of_layout hscan₂ hparse hp₂ hs, rfl, Generator.preamble_append _ _,
        Generator.preamble_append _ _, ?_⟩
      simp [Scopes.relabel, Table.relabel, Global.relabel, hname₁, hname₂]
    · obtain ⟨k, i, id, hk, hi, hline⟩ := TokenStream.exists_stopsAt hparse hs
      refine .inr (.inr ⟨k, i, _, _, refusedAt_of_layout hscan₁ hfaces₁ hparse hp₁ hs hk hi hline,
        refusedAt_of_layout hscan₂ hfaces₂ hparse hp₂ hs hk hi hline, ?_⟩)
      rw [SemanticError.relabel, SemanticError.relabel, hname₁, hname₂]

/-- With line breaks in place of the blanks of `global int x;` only the line of `x` changes. -/
theorem compileText_of_faces_breaks :
    let source (c : Char) : List UInt8 :=
      ("global".toList ++ [c] ++ "int".toList ++ [c] ++ "x;".toList).map Char.toUInt8
    ∃ text₁ text₂ g₁ g₂, CompilesTo (source ' ') text₁ g₁ ∧ CompilesTo (source '\n') text₂ g₂ ∧
      g₁.lines = g₂.lines ∧ g₁.table.globals = [⟨"x", "g_x", 1⟩] ∧
      g₂.table.globals = [⟨"x", "g_x", 3⟩] := by
  intro source
  let text (c : Char) : List Char := "global".toList ++ [c] ++ "int".toList ++ [c] ++ "x;".toList
  let line (u : List Char) : Int := 1 + u.count '\n'
  let word : Token := ⟨.keyword .globalWord, "global", 1⟩
  let x (c : Char) : Token :=
    ⟨.identifier, "x", line ("global".toList ++ [c] ++ "int".toList ++ [c])⟩
  let tokens (c : Char) : List Token := [word,
    ⟨.keyword .intWord, "int", line ("global".toList ++ [c])⟩, x c,
    ⟨.char ';', ";", line ("global".toList ++ [c] ++ "int".toList ++ [c] ++ ['x'])⟩]
  let pieces (c : Char) : List (List Char × List Char) :=
    [([], "global".toList), ([c], "int".toList), ([c], ['x']), ([], [';'])]
  have hcut₁ : Cut [] (text ' ') (tokens ' ') := .of_pieces (pieces ' ') rfl
  have hcut₂ : Cut [] (text '\n') (tokens '\n') := .of_pieces (pieces '\n') rfl
  have hscan {c : Char} (hcut : Cut [] (text c) (tokens c))
      (hdecode : (Utf8.decode (source c)).characters = text c) :
      (Reader.ofBytes (source c)).scan.1 = ⟨tokens c, .endOfFile (line (text c))⟩ := by
    have hat := Reader.at_ofBytes (source c)
    rw [hdecode] at hat
    have hall := hat.scan_cut hcut
    rwa [List.nil_append] at hall
  have hscan₁ := hscan hcut₁ rfl
  have hscan₂ := hscan hcut₂ rfl
  let p (c : Char) : Program := ⟨word, [.decl word .globalVar ⟨x c, "x"⟩ none]⟩
  have hparse₁ : (Reader.ofBytes (source ' ')).parse.result = .ok (p ' ') := by
    rw [Reader.parse, hscan₁]
    rfl
  have hparse₂ : (Reader.ofBytes (source '\n')).parse.result = .ok (p '\n') := by
    rw [Reader.parse, hscan₂]
    rfl
  have hok : ∃ text, compileText (source ' ') = .ok text := by
    rw [compileText, Reader.compile, hparse₁]
    exact ⟨_, rfl⟩
  have hfaces : (Reader.ofBytes (source ' ')).scan.1.tokens.map Token.face =
      (Reader.ofBytes (source '\n')).scan.1.tokens.map Token.face := by
    rw [hscan₁, hscan₂]
    rfl
  obtain ⟨text, hok⟩ := hok
  rcases compileText_of_faces hfaces with
    ⟨text₁, text₂, g₁, g₂, _, hc₁, hc₂, hlines, _⟩ | ⟨e₁, e₂, he, _⟩ | ⟨k, i, e₁, e₂, he, _⟩
  · obtain ⟨p₁, hp₁, hg₁⟩ := hc₁.program
    obtain ⟨p₂, hp₂, hg₂⟩ := hc₂.program
    cases hparse₁.symm.trans hp₁
    cases hparse₂.symm.trans hp₂
    refine ⟨text₁, text₂, g₁, g₂, hc₁, hc₂, hlines, ?_, ?_⟩
    · rw [← (Prod.mk.inj hg₁).2]
      rfl
    · rw [← (Prod.mk.inj hg₂).2]
      rfl
  · cases hok.symm.trans he
  · cases hok.symm.trans he.result

end IntLang
