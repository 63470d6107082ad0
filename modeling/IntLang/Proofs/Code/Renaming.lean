import IntLang.Proofs.Code.Listing
import IntLang.Proofs.Scope.Relabel

/-! Code under other names and lines. The code of a tree depends on the places of its variables
only, so a relabelling that carries places over carries the code over. For a parsed program whose
globals keep their names, new names change neither the text nor what is wrong with it. -/
namespace IntLang

variable {ρ : Relabelling} {f f' : Frame} {t t' : Table}

theorem emitAll_relabel {ns : List Node}
    (ih : ∀ n ∈ ns, (n.emit f t).halt = none → (n.relabel ρ).emit f' t' = n.emit f t)
    (hh : (emitAll f t ns).halt = none) : emitAll f' t' (relabelAll ρ ns) = emitAll f t ns := by
  induction ns with
  | nil => rfl
  | cons n ns ihs =>
    rw [emitAll, Emission.halt_andThen, Option.or_eq_none_iff] at hh
    rw [relabelAll, emitAll, emitAll, ih n (by simp) hh.1,
      ihs (fun m hm => ih m (by simp [hm])) hh.2]

/-- Whatever has a place in the first frame and table has it in the second ones, under its new
name. -/
structure CarriesPlaces (ρ : Relabelling) (f : Frame) (t : Table) (f' : Frame) (t' : Table) :
    Prop where
  fixed : f.fixed = true
  stillFixed : f'.fixed = true
  place : ∀ name place, f.place? t name = some place → f'.place? t' (ρ.name name) = some place

namespace CarriesPlaces

variable (h : CarriesPlaces ρ f t f' t')
include h

theorem ident {id : Ident} {code : Operand → List Instr} (hh : (id.emit f t code).halt = none) :
    (id.relabel ρ).emit f' t' code = id.emit f t code := by
  cases hp : f.place? t id.name with
  | none => simp [Ident.emit, Frame.operand?_eq h.fixed, hp, Emission.stop] at hh
  | some place => rw [Ident.emit_eq h.fixed hp, Ident.emit_eq h.stillFixed (h.place _ _ hp)]

theorem clear {id : Ident} (hh : (id.clear f).halt = none) :
    (id.relabel ρ).clear f' = id.clear f := by
  cases hl : f.find? id.name with
  | none =>
    simp [Ident.clear, Frame.localOffset, Frame.check, h.fixed, hl, bind, Except.bind, throw,
      throwThe, MonadExceptOf.throw, Emission.stop] at hh
  | some l =>
    have hp : f.place? t id.name = some (.mem (.slot l.offset)) := by simp [Frame.place?, hl]
    have hp' := h.place _ _ hp
    cases hl' : f'.find? (ρ.name id.name) with
    | none =>
      cases hg : t'.find? (ρ.name id.name) <;> simp [Frame.place?, hl', hg] at hp'
    | some l' =>
      have ho : l'.offset = l.offset := by simpa [Frame.place?, hl', Mem.slot] using hp'
      rw [Ident.clear, Ident.clear, Ident.relabel, Frame.localOffset_of_find? h.fixed hl,
        Frame.localOffset_of_find? h.stillFixed hl', ho]

/-- Code that nothing stops is the same for the relabelled tree. -/
theorem emit (n : Node) (hh : (n.emit f t).halt = none) :
    (n.relabel ρ).emit f' t' = n.emit f t := by
  induction n using Node.induction with
  | program tok stmts ih => exact emitAll_relabel ih hh
  | ident id => exact h.ident hh
  | int tok value => rfl
  | binop tok op left right ihl ihr =>
    simp only [Node.emit, Emission.halt_andThen, Option.or_eq_none_iff] at hh
    rw [Node.relabel, Node.emit, Node.emit, ihl hh.1, ihr hh.2.2.1]
  | assign tok target value ih =>
    rw [Node.emit, Emission.halt_andThen, Option.or_eq_none_iff] at hh
    rw [Node.relabel, Node.emit, Node.emit, ih hh.1, Ident.store, Ident.store, h.ident hh.2]
  | declare tok scope name =>
    rw [Node.relabel, Node.emit, Node.emit]
    rw [Node.emit] at hh
    split
    · rename_i hs
      rw [if_pos hs] at hh
      exact h.clear hh
    · rfl
  | initialise tok scope name init ih =>
    rw [Node.emit, Emission.halt_andThen, Option.or_eq_none_iff] at hh
    rw [Node.relabel, Node.emit, Node.emit, ih hh.1, Ident.store, Ident.store, h.ident hh.2]
  | print tok value ih =>
    rw [Node.emit, Emission.halt_andThen, Option.or_eq_none_iff] at hh
    rw [Node.relabel, Node.emit, Node.emit, ih hh.1]
  | ret tok => rfl
  | retValue tok value ih =>
    rw [Node.emit, Emission.halt_andThen, Option.or_eq_none_iff] at hh
    rw [Node.relabel, Node.emit, Node.emit, ih hh.1]
  | late inner ih => exact ih hh

end CarriesPlaces

/-- Relabelled declarations give every variable the place it had. -/
theorem Scopes.Within.carriesPlaces {N : Set Text} (inj : Set.InjOn ρ.name N) {s : Scopes}
    (hs : s.Within N) :
    CarriesPlaces ρ s.frame s.table (s.relabel ρ).frame (s.relabel ρ).table := by
  refine ⟨rfl, rfl, ?_⟩
  intro name place hp
  have hl (hn : name ∈ N) : (s.relabel ρ).frame.find? (ρ.name name) =
      (s.frame.find? name).map (Local.relabel ρ) := hs.find?_local inj hn
  have hg (hn : name ∈ N) : (s.relabel ρ).table.find? (ρ.name name) =
      (s.table.find? name).map (Global.relabel ρ) := hs.find?_global inj hn
  unfold Frame.place? at hp ⊢
  cases hfl : s.frame.find? name with
  | some l =>
    have hn : name ∈ N := mem_of_find?_eq_some hs.locals hfl
    rw [hfl] at hp
    rw [hl hn, hfl]
    exact hp
  | none =>
    rw [hfl] at hp
    obtain ⟨g, hfg, rfl⟩ := Option.map_eq_some_iff.mp hp
    have hn : name ∈ N := mem_of_find?_eq_some hs.globals hfg
    rw [hl hn, hfl, hg hn, hfg]
    rfl

namespace Relabelling.Respects

variable {p : Program} (hρ : ρ.Respects p.node)
include hρ

/-- Where a program is accepted, so is its relabelling, with the same lines. -/
theorem generate {s : Scopes} (hp : p.node.Regular) (hs : p.node.layout ⟨{}, {}⟩ = .ok () s) :
    let text := Generator.preamble (s.relabel ρ).table ++ (s.lines p).flatMap Generator.lineText
    ({} : Generator).generate (p.relabel ρ) =
      (.ok text, ⟨(s.relabel ρ).table, text, s.lines p⟩) := by
  have hlayout := hρ.layout
  rw [hs, relabelOutcome, ← p.node_relabel ρ] at hlayout
  have hcarry := (Node.within_of_layout hs).carriesPlaces hρ.injective
  have hcode := hcarry.emit p.node (hp.emit_halt hs)
  rw [← p.node_relabel ρ] at hcode
  have hprologue : prologue (s.relabel ρ).frame = prologue s.frame := by
    rw [prologue, prologue, Frame.size, Frame.size, Scopes.frame, Scopes.frame, Scopes.relabel,
      Builder.relabel, List.length_map]
  have hlines : (s.relabel ρ).lines (p.relabel ρ) = s.lines p := by
    rw [Scopes.lines, Scopes.lines, hcode, hprologue]
  have hgen := Generator.generate_of_layout hlayout (hcode ▸ hp.emit_halt hs)
  rwa [hlines] at hgen

/-- Where a program is rejected, so is its relabelling, with the relabelled error. -/
theorem generate_rejected {e : SemanticError} {s : Scopes}
    (hs : p.node.layout ⟨{}, {}⟩ = .error (.rejected e) s) :
    ({} : Generator).generate (p.relabel ρ) =
      (.error (.error (.during "preprocess locals" (.inScope (e.relabel ρ)))),
        { table := (s.relabel ρ).table }) := by
  have hlayout := hρ.layout
  rw [hs, relabelOutcome, Halt.relabel, ← p.node_relabel ρ] at hlayout
  exact Generator.generate_of_rejected hlayout

end Relabelling.Respects

/-- New names that tell the old ones apart and leave globals alone turn a parsed program into one
that the renamed tokens parse to. Both are accepted with the same text, or rejected at the same line
with the same message about corresponding names. -/
theorem TokenStream.generate_rename (tokens : TokenStream) {p : Program}
    (hp : tokens.parse.result = .ok p) (r : Text → Text) (hr : Set.InjOn r {x | x ∈ p.node.names})
    (hg : ∀ id ∈ declaredIn .globalVar p.node.namings, r id.name = id.name) :
    let ρ : Relabelling := { name := r }
    (tokens.relabel ρ).parse.result = .ok (p.relabel ρ) ∧
    ((∃ text g, ({} : Generator).generate p = (.ok text, g) ∧
        ({} : Generator).generate (p.relabel ρ) = (.ok text, g)) ∨
      ∃ e e' g g', ({} : Generator).generate p =
          (.error (.error (.during "preprocess locals" (.inScope e))), g) ∧
        ({} : Generator).generate (p.relabel ρ) =
          (.error (.error (.during "preprocess locals" (.inScope e'))), g') ∧
        e'.line = e.line ∧ e'.message = e.message ∧ e'.name = r e.name) := by
  intro ρ
  have hρ : ρ.Respects p.node := ⟨hr, hg⟩
  refine ⟨by rw [parse_relabel, hp]; rfl, ?_⟩
  rcases layout_ofNamings hp with ⟨_, hs⟩ | ⟨_, _, _, e, _, _, _, hs⟩
  · have htable : ((Scopes.ofNamings p.node.namings).relabel ρ).table =
        (Scopes.ofNamings p.node.namings).table := by
      refine Table.relabel_eq_self ?_
      intro g hmem
      obtain ⟨i, hi, rfl⟩ := List.mem_mapIdx.mp hmem
      exact ⟨hg _ (List.getElem_mem hi), rfl⟩
    have hregular := regular_of_parse hp
    have hgen := hρ.generate hregular hs
    rw [htable] at hgen
    exact .inl ⟨_, _, Generator.generate_of_layout hs (hregular.emit_halt hs), hgen⟩
  · exact .inr ⟨e, e.relabel ρ, _, _, Generator.generate_of_rejected hs, hρ.generate_rejected hs,
      rfl, SemanticError.message_relabel ρ rfl, rfl⟩

/-- In `global int g; local int x = 1; local int y = x; g = y;` the two locals may swap their
names. -/
theorem TokenStream.generate_rename_swap :
    let global₁ : Token := ⟨.keyword .globalWord, "global", 1⟩
    let local₂ : Token := ⟨.keyword .localWord, "local", 2⟩
    let equals : Token := ⟨.char '=', "=", 2⟩
    let one : Token := ⟨.intLiteral, "1", 2⟩
    let g : Ident := ⟨⟨.identifier, "g", 1⟩, "g"⟩
    let x : Ident := ⟨⟨.identifier, "x", 2⟩, "x"⟩
    let y : Ident := ⟨⟨.identifier, "y", 2⟩, "y"⟩
    let p : Program := ⟨global₁, [.decl global₁ .globalVar g none,
      .decl local₂ .localVar x (some (.int one 1)), .decl local₂ .localVar y (some (.ident x)),
      .assign equals g (.ident y)]⟩
    let q : Program := ⟨global₁, [.decl global₁ .globalVar g none,
      .decl local₂ .localVar y (some (.int one 1)), .decl local₂ .localVar x (some (.ident y)),
      .assign equals g (.ident x)]⟩
    ∃ text g, ({} : Generator).generate p = (.ok text, g) ∧
      ({} : Generator).generate q = (.ok text, g) := by
  intro global₁ local₂ equals one g x y p q
  let intWord : Token := ⟨.keyword .intWord, "int", 1⟩
  let semicolon : Token := ⟨.char ';', ";", 1⟩
  let swap (n : Text) : Text := if n = "x" then "y" else if n = "y" then "x" else n
  have hp : (TokenStream.parse ⟨[global₁, intWord, g.tok, semicolon, local₂, intWord, x.tok, equals,
      one, semicolon, local₂, intWord, y.tok, equals, x.tok, semicolon, g.tok, equals, y.tok,
      semicolon], .endOfFile 2⟩).result = .ok p := rfl
  have hswap (n : Text) : swap (swap n) = n := by
    by_cases hx : n = "x"
    · simp [swap, hx]
    · by_cases hy : n = "y" <;> simp [swap, hx, hy]
  have hinj : Function.Injective swap := Function.LeftInverse.injective hswap
  have hdecl : declaredIn .globalVar p.node.namings = [g] := rfl
  have hglobal : ∀ id ∈ declaredIn .globalVar p.node.namings, swap id.name = id.name := by
    intro id hid
    rw [hdecl, List.mem_singleton] at hid
    rw [hid]
    rfl
  have hq : p.relabel { name := swap } = q := rfl
  have hok : ∃ text g, ({} : Generator).generate p = (.ok text, g) := ⟨_, _, rfl⟩
  obtain ⟨_, h | ⟨e, e', g₁, g₂, he, _⟩⟩ := generate_rename _ hp swap hinj.injOn hglobal
  · rwa [hq] at h
  · obtain ⟨text, g, hok⟩ := hok
    rw [hok] at he
    cases he

end IntLang
