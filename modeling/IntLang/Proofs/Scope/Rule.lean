import Mathlib.Data.List.Induction
import IntLang.Proofs.Code.Resolution

/-! The scoping rule: a name is declared before it is used, and it is declared once. The first pass
is a check of this rule. It fails exactly where the rule is broken for the first time, and else it
leaves the declarations in the order in which they stand in the program. -/
namespace IntLang

def Naming.ident : Naming → Ident
  | .use id => id
  | .declare _ id => id

/-- Whether the naming is a declaration of this name, in either scope. -/
def Naming.declares (name : Text) : Naming → Bool
  | .use _ => false
  | .declare _ id => id.name = name

/-- The rule for one naming: a use needs a declaration of its name before it, and a declaration
must not have one. -/
def Naming.Obeys (before : List Naming) : Naming → Prop
  | .use id => ∃ n ∈ before, n.declares id.name = true
  | .declare _ id => ∀ n ∈ before, n.declares id.name = false

/-- Every naming obeys the rule after those that stand before it. -/
def WellScoped (ns : List Naming) : Prop :=
  ∀ before n after, ns = before ++ n :: after → n.Obeys before

/-- What is said of a name that was declared before, on a line that is told. -/
def clashText (now before : Scope) (line : Int) : Text :=
  if now = before then
    now.text ++ " redeclared (previous declaration at line " ++ Decimal.ofInt line ++ ")"
  else now.text ++ " conflicts with " ++ before.text ++ " declared at line " ++ Decimal.ofInt line

/-- The message for a naming that breaks the rule. Where a name is declared again there is just one
declaration of it before, and the message quotes that one. -/
inductive Naming.Message (before : List Naming) : Naming → Text → Prop
  | undeclared (id : Ident) : Message before (.use id) "undeclared variable"
  | again {now earlier : Scope} {id first : Ident}
      (only : before.filter (Naming.declares id.name) = [.declare earlier first]) :
      Message before (.declare now id) (clashText now earlier first.tok.line)

/-- The error tells that this naming breaks the rule after those before it. -/
structure Naming.Breach (before : List Naming) (n : Naming) (e : SemanticError) : Prop where
  broken : ¬ n.Obeys before
  line : e.line = n.ident.tok.line
  name : e.name = n.ident.name
  message : n.Message before e.message

/-- The names declared in a scope, in order. -/
def declaredIn (scope : Scope) (ns : List Naming) : List Ident :=
  ns.filterMap fun
    | .use _ => none
    | .declare scope' id => if scope' = scope then some id else none

/-- The table entries of globals that are declared in this order. -/
def globalEntries (ids : List Ident) : List Global :=
  ids.mapIdx fun i id => ⟨id.name, labelFor id.name i, id.tok.line⟩

/-- The frame entries of locals that are declared in this order. -/
def localEntries (ids : List Ident) : List Local :=
  ids.mapIdx fun i id => ⟨id.name, -(wordSize * (i + 1) : Nat), id.tok.line⟩

/-- What is declared after namings that obey the rule. -/
def Scopes.ofNamings (ns : List Naming) : Scopes where
  table := ⟨globalEntries (declaredIn .globalVar ns)⟩
  builder := { locals := localEntries (declaredIn .localVar ns) }

theorem wellScoped_nil : WellScoped [] := by
  intro before n after h
  simp at h

theorem wellScoped_concat {ns : List Naming} {n : Naming} :
    WellScoped (ns ++ [n]) ↔ WellScoped ns ∧ n.Obeys ns := by
  constructor
  · intro h
    refine ⟨?_, h ns n [] rfl⟩
    intro before m after hns
    exact h before m (after ++ [n]) (by simp [hns])
  · rintro ⟨h, hn⟩ before m after hns
    rcases List.eq_nil_or_concat after with rfl | ⟨after, m', rfl⟩
    · obtain ⟨rfl, hm⟩ := List.append_inj' hns rfl
      cases hm
      exact hn
    · have hns' : ns ++ [n] = (before ++ m :: after) ++ [m'] := by simpa using hns
      exact h before m after (List.append_inj' hns' rfl).1

/-- The declarations of one name, under the rule: none or a single one. -/
theorem WellScoped.filter_declares {ns : List Naming} (h : WellScoped ns)
    (hp : ∀ n ∈ ns, n.Proper) (name : Text) : ns.filter (Naming.declares name) = [] ∨
      ∃ (storage : Storage) (id : Ident),
        ns.filter (Naming.declares name) = [.declare storage.scope id] := by
  induction ns using List.reverseRecOn with
  | nil => exact .inl rfl
  | append_singleton ns n ih =>
    obtain ⟨hns, hn⟩ := wellScoped_concat.mp h
    have ih := ih hns fun m hm => hp m (by simp [hm])
    rw [List.filter_append]
    cases n with
    | use id => simpa [Naming.declares] using ih
    | declare scope id =>
      by_cases he : id.name = name
      · have hnone : ns.filter (Naming.declares name) = [] := by
          rw [List.filter_eq_nil_iff]
          intro m hm
          simp [hn m hm, ← he]
        obtain ⟨storage, rfl⟩ := hp (.declare scope id) (by simp)
        exact .inr ⟨storage, id, by simp [hnone, Naming.declares, he]⟩
      · simpa [Naming.declares, he] using ih

theorem map_find?_mapIdx {α β γ : Type} {f : Nat → α → β} {p : β → Bool} {q : α → Bool}
    {g : β → γ} {g' : α → γ} (hp : ∀ i a, p (f i a) = q a) (hg : ∀ i a, g (f i a) = g' a)
    (xs : List α) : ((xs.mapIdx f).find? p).map g = (xs.find? q).map g' := by
  induction xs generalizing f with
  | nil => rfl
  | cons x xs ih =>
    rw [List.mapIdx_cons, List.find?_cons, List.find?_cons, hp]
    cases q x with
    | true => simp [hg]
    | false => exact ih (fun i a => hp (i + 1) a) (fun i a => hg (i + 1) a)

theorem find?_declaredIn (scope : Scope) (ns : List Naming) (name : Text) :
    (declaredIn scope ns).find? (fun id => id.name = name) =
      (declaredIn scope (ns.filter (Naming.declares name))).head? := by
  have hfilter : (declaredIn scope ns).filter (fun id => id.name = name) =
      declaredIn scope (ns.filter (Naming.declares name)) := by
    induction ns with
    | nil => rfl
    | cons n ns ih =>
      cases n with
      | use id => exact ih
      | declare scope' id =>
        by_cases hs : scope' = scope <;> by_cases hn : id.name = name <;>
          simp_all [declaredIn, Naming.declares]
  rw [← hfilter, List.head?_filter]

namespace Scopes

/-- The line of a global that was declared, by its name. -/
theorem ofNamings_global (ns : List Naming) (name : Text) :
    ((ofNamings ns).table.find? name).map Global.line =
      (declaredIn .globalVar (ns.filter (Naming.declares name))).head?.map
        fun id => id.tok.line := by
  rw [← find?_declaredIn]
  refine map_find?_mapIdx ?_ ?_ _ <;> exact fun _ _ => rfl

theorem ofNamings_local (ns : List Naming) (name : Text) :
    ((ofNamings ns).builder.find? name).map Local.line =
      (declaredIn .localVar (ns.filter (Naming.declares name))).head?.map
        fun id => id.tok.line := by
  rw [← find?_declaredIn]
  refine map_find?_mapIdx ?_ ?_ _ <;> exact fun _ _ => rfl

/-- A name without a declaration is in neither list. -/
theorem ofNamings_undeclared {ns : List Naming} {name : Text}
    (h : ns.filter (Naming.declares name) = []) :
    (ofNamings ns).table.find? name = none ∧ (ofNamings ns).builder.find? name = none := by
  have hg := ofNamings_global ns name
  have hl := ofNamings_local ns name
  rw [h] at hg hl
  exact ⟨Option.map_eq_none_iff.mp hg, Option.map_eq_none_iff.mp hl⟩

/-- A name with one declaration is in the list of its scope only, with the line of that one. -/
theorem ofNamings_declared {ns : List Naming} {name : Text} {storage : Storage} {id : Ident}
    (h : ns.filter (Naming.declares name) = [.declare storage.scope id]) :
    match storage with
    | .globalVar => (∃ g, (ofNamings ns).table.find? name = some g ∧ g.line = id.tok.line) ∧
        (ofNamings ns).builder.find? name = none
    | .localVar => ∃ l, (ofNamings ns).builder.find? name = some l ∧ l.line = id.tok.line := by
  have hg := ofNamings_global ns name
  have hl := ofNamings_local ns name
  rw [h] at hg hl
  cases storage with
  | globalVar => exact ⟨Option.map_eq_some_iff.mp hg, Option.map_eq_none_iff.mp hl⟩
  | localVar => exact Option.map_eq_some_iff.mp hl

/-- A use leaves the declarations as they are. -/
theorem ofNamings_use (ns : List Naming) (id : Ident) :
    ofNamings (ns ++ [.use id]) = ofNamings ns := by
  simp [ofNamings, declaredIn]

theorem ofNamings_declareGlobal (ns : List Naming) (id : Ident) :
    ofNamings (ns ++ [.declare .globalVar id]) = { ofNamings ns with
      table := ⟨(ofNamings ns).table.globals ++
        [(ofNamings ns).table.entry id.name id.tok.line]⟩ } := by
  simp [ofNamings, declaredIn, globalEntries, Table.entry, List.mapIdx_concat]

theorem ofNamings_declareLocal (ns : List Naming) (id : Ident) :
    ofNamings (ns ++ [.declare .localVar id]) = { ofNamings ns with
      builder := { (ofNamings ns).builder with locals := (ofNamings ns).builder.locals ++
        [(ofNamings ns).builder.entry id.name id.tok.line] } } := by
  simp [ofNamings, declaredIn, localEntries, Builder.entry, List.mapIdx_concat]

end Scopes

/-- Before the frame is fixed, a declaration of a global fails only over a name that is declared,
and a local is looked for first. -/
theorem Builder.declareGlobal_eq {b : Builder} (hb : b.finished = false) (t : Table) (name : Text)
    (line : Int) : b.declareGlobal t name line =
      match b.find? name, t.find? name with
      | some l, _ => .error (.rejected ⟨line, name, .globalHitsLocal l.line⟩)
      | none, some g => .error (.rejected ⟨line, name, .globalRedeclared g.line⟩)
      | none, none => .ok ⟨t.globals ++ [t.entry name line]⟩ := by
  unfold declareGlobal check Table.declare
  cases b.find? name <;> cases t.find? name <;>
    simp [hb, bind, Except.bind, throw, throwThe, MonadExceptOf.throw, pure, Except.pure]

theorem Builder.declareLocal_eq {b : Builder} (hb : b.finished = false) (t : Table) (name : Text)
    (line : Int) : b.declareLocal t name line =
      match b.find? name, t.find? name with
      | some l, _ => .error (.rejected ⟨line, name, .localRedeclared l.line⟩)
      | none, some g => .error (.rejected ⟨line, name, .localHitsGlobal g.line⟩)
      | none, none => .ok { b with locals := b.locals ++ [b.entry name line] } := by
  unfold declareLocal check
  cases b.find? name <;> cases t.find? name <;>
    simp [hb, bind, Except.bind, throw, throwThe, MonadExceptOf.throw, pure, Except.pure]

theorem Naming.obeys_use {before : List Naming} {id : Ident} :
    (Naming.use id).Obeys before ↔ before.filter (declares id.name) ≠ [] := by
  simp [Obeys, List.filter_eq_nil_iff]

theorem Naming.obeys_declare {before : List Naming} {scope : Scope} {id : Ident} :
    (Naming.declare scope id).Obeys before ↔ before.filter (declares id.name) = [] := by
  simp [Obeys, List.filter_eq_nil_iff]

/-- The cause of an error over a name that is declared again. -/
def clashCause : (now before : Storage) → Int → SemanticCause
  | .globalVar, .globalVar => .globalRedeclared
  | .globalVar, .localVar => .globalHitsLocal
  | .localVar, .globalVar => .localHitsGlobal
  | .localVar, .localVar => .localRedeclared

theorem message_clashCause (now before : Storage) (line : Int) :
    (clashCause now before line).message = clashText now.scope before.scope line := by
  have hsame (scope : Scope) {t : Text}
      (ht : t = scope.text ++ (" redeclared (previous declaration at line " : Text)) :
      t ++ Decimal.ofInt line ++ ")" = clashText scope scope line := by
    rw [clashText, if_pos rfl, ht]
  have hother {now before : Scope} (hne : now ≠ before) {t : Text}
      (ht : t = now.text ++ (" conflicts with " : Text) ++ before.text ++ " declared at line ") :
      t ++ Decimal.ofInt line = clashText now before line := by
    rw [clashText, if_neg hne, ht]
  cases now <;> cases before
  · exact hsame .globalVar (by decide +kernel)
  · exact hother (by decide) (by decide +kernel)
  · exact hother (by decide) (by decide +kernel)
  · exact hsame .localVar (by decide +kernel)

namespace Naming

variable {before : List Naming}

theorem act_use (h : WellScoped before) (hp : ∀ n ∈ before, n.Proper) (id : Ident) :
    ((use id).Obeys before ∧ (use id).act (.ofNamings before) = .ok () (.ofNamings before)) ∨
      ∃ e, (use id).Breach before e ∧
        (use id).act (.ofNamings before) = .error (.rejected e) (.ofNamings before) := by
  rcases h.filter_declares hp id.name with hf | ⟨storage, first, hf⟩
  · obtain ⟨hg, hl⟩ := Scopes.ofNamings_undeclared hf
    refine .inr ⟨⟨id.tok.line, id.name, .undeclared⟩, ⟨?_, rfl, rfl, .undeclared id⟩, ?_⟩
    · exact fun ho => obeys_use.mp ho hf
    · simp [act, Declaring.use, Builder.lookup, hg, hl]
  · refine .inl ⟨obeys_use.mpr (by simp [hf]), ?_⟩
    have hfind := Scopes.ofNamings_declared hf
    cases storage with
    | globalVar =>
      obtain ⟨⟨g, hg, _⟩, hl⟩ := hfind
      simp [act, Declaring.use, Builder.lookup, hg, hl]
    | localVar =>
      obtain ⟨l, hl, _⟩ := hfind
      simp [act, Declaring.use, Builder.lookup, hl]

theorem act_declare_undeclared (now : Storage) {id : Ident}
    (hf : before.filter (declares id.name) = []) :
    (declare now.scope id).act (.ofNamings before) =
      .ok () (.ofNamings (before ++ [declare now.scope id])) := by
  have hopen : (Scopes.ofNamings before).builder.finished = false := rfl
  obtain ⟨hg, hl⟩ := Scopes.ofNamings_undeclared hf
  cases now with
  | globalVar =>
    rw [Storage.scope, Scopes.ofNamings_declareGlobal]
    simp [act, Declaring.declare, Declaring.ofGlobal, Builder.declareGlobal_eq hopen, hg, hl]
  | localVar =>
    rw [Storage.scope, Scopes.ofNamings_declareLocal]
    simp [act, Declaring.declare, Declaring.ofLocal, Builder.declareLocal_eq hopen, hg, hl]

theorem act_declare_declared (now : Storage) {storage : Storage} {id first : Ident}
    (hf : before.filter (declares id.name) = [declare storage.scope first]) :
    (declare now.scope id).act (.ofNamings before) =
      .error (.rejected ⟨id.tok.line, id.name, clashCause now storage first.tok.line⟩)
        (.ofNamings before) := by
  have hopen : (Scopes.ofNamings before).builder.finished = false := rfl
  have hfind := Scopes.ofNamings_declared hf
  cases now with
  | globalVar =>
    rw [act, Storage.scope, Declaring.declare, Declaring.ofGlobal, Builder.declareGlobal_eq hopen]
    cases storage with
    | globalVar =>
      obtain ⟨⟨g, hg, hline⟩, hl⟩ := hfind
      simp [hg, hl, hline, clashCause]
    | localVar =>
      obtain ⟨l, hl, hline⟩ := hfind
      simp [hl, hline, clashCause]
  | localVar =>
    rw [act, Storage.scope, Declaring.declare, Declaring.ofLocal, Builder.declareLocal_eq hopen]
    cases storage with
    | globalVar =>
      obtain ⟨⟨g, hg, hline⟩, hl⟩ := hfind
      simp [hg, hl, hline, clashCause]
    | localVar =>
      obtain ⟨l, hl, hline⟩ := hfind
      simp [hl, hline, clashCause]

/-- What one naming does after others that obey the rule: if it obeys the rule as well, it is added
to them, and if not, it is refused with an error that says so. -/
theorem act_ofNamings (h : WellScoped before) (hp : ∀ n ∈ before, n.Proper) {n : Naming}
    (hn : n.Proper) :
    (n.Obeys before ∧ n.act (.ofNamings before) = .ok () (.ofNamings (before ++ [n]))) ∨
      ∃ e, n.Breach before e ∧
        n.act (.ofNamings before) = .error (.rejected e) (.ofNamings before) := by
  cases n with
  | use id =>
    rw [Scopes.ofNamings_use]
    exact act_use h hp id
  | declare scope id =>
    obtain ⟨now, rfl⟩ := hn
    rcases h.filter_declares hp id.name with hf | ⟨storage, first, hf⟩
    · exact .inl ⟨obeys_declare.mpr hf, act_declare_undeclared now hf⟩
    · refine .inr ⟨_, ⟨?_, rfl, rfl, ?_⟩, act_declare_declared now hf⟩
      · intro ho
        rw [obeys_declare.mp ho] at hf
        cases hf
      · rw [SemanticError.message, message_clashCause]
        exact .again hf

end Naming

/-- A run through namings after others that obey the rule: either all obey it and are added, or the
run stops at the first that does not, with its error and with what was declared up to there. -/
theorem actAll_ofNamings {before ns : List Naming} (h : WellScoped before)
    (hp : ∀ n ∈ before ++ ns, n.Proper) :
    (WellScoped (before ++ ns) ∧
      actAll ns (.ofNamings before) = .ok () (.ofNamings (before ++ ns))) ∨
    ∃ ms n after e, ns = ms ++ n :: after ∧ WellScoped (before ++ ms) ∧ n.Breach (before ++ ms) e ∧
      actAll ns (.ofNamings before) = .error (.rejected e) (.ofNamings (before ++ ms)) := by
  induction ns generalizing before with
  | nil => exact .inl ⟨by simpa using h, by simp [actAll, pure, EStateM.pure]⟩
  | cons n ns ih =>
    have hbefore : ∀ m ∈ before, m.Proper := fun m hm => hp m (by simp [hm])
    rcases Naming.act_ofNamings h hbefore (hp n (by simp)) with ⟨ho, hact⟩ | ⟨e, hb, hact⟩
    · have hrun : actAll (n :: ns) (.ofNamings before) =
          actAll ns (.ofNamings (before ++ [n])) := by
        simp only [actAll, Bind.bind, EStateM.bind, hact]
      have hshift : before ++ [n] ++ ns = before ++ n :: ns := by simp
      rcases ih (wellScoped_concat.mpr ⟨h, ho⟩) (by rwa [hshift]) with
        ⟨hok, hall⟩ | ⟨ms, m, after, e, rfl, hms, hb, hall⟩
      · rw [hshift] at hok hall
        exact .inl ⟨hok, hrun.trans hall⟩
      · refine .inr ⟨n :: ms, m, after, e, rfl, ?_, ?_, ?_⟩
        · simpa using hms
        · simpa using hb
        · simpa using hrun.trans hall
    · refine .inr ⟨[], n, ns, e, rfl, by simpa using h, by simpa using hb, ?_⟩
      simp only [actAll, Bind.bind, EStateM.bind, hact, List.append_nil]

/-- The first pass over a parsed program, with nothing declared before it. -/
theorem TokenStream.layout_ofNamings {tokens : TokenStream} {p : Program}
    (hp : tokens.parse.result = .ok p) :
    (WellScoped p.node.namings ∧
      p.node.layout ⟨{}, {}⟩ = .ok () (.ofNamings p.node.namings)) ∨
    ∃ before n after e, p.node.namings = before ++ n :: after ∧ WellScoped before ∧
      n.Breach before e ∧ p.node.layout ⟨{}, {}⟩ = .error (.rejected e) (.ofNamings before) := by
  have hproper : ∀ n ∈ [] ++ p.node.namings, n.Proper := (regular_of_parse hp).proper
  have hempty : Scopes.ofNamings [] = ⟨{}, {}⟩ := rfl
  have hrun := actAll_ofNamings wellScoped_nil hproper
  rwa [← p.node.layout_eq, hempty] at hrun

/-- The first pass over a parsed program, with nothing declared before it, fails exactly if some use
or declaration breaks the scoping rule, and its error is that of the first one. If it succeeds, the
globals and the locals are those that the program declares, in its order. -/
theorem TokenStream.layout_error_iff (tokens : TokenStream) {p : Program}
    (hp : tokens.parse.result = .ok p) :
    ((∃ h s, p.node.layout ⟨{}, {}⟩ = .error h s) ↔
      ∃ before n after, p.node.namings = before ++ n :: after ∧ ¬ n.Obeys before) ∧
    (∀ h s, p.node.layout ⟨{}, {}⟩ = .error h s → ∃ before n after e,
      p.node.namings = before ++ n :: after ∧ WellScoped before ∧ n.Breach before e ∧
        h = .rejected e) ∧
    ∀ s, p.node.layout ⟨{}, {}⟩ = .ok () s →
      s.table.globals = globalEntries (declaredIn .globalVar p.node.namings) ∧
      ∃ f b, s.builder.finish = .ok (f, b) ∧
        f.locals = localEntries (declaredIn .localVar p.node.namings) := by
  rcases layout_ofNamings hp with
    ⟨hok, hlayout⟩ | ⟨before, n, after, e, hns, hbefore, hbreach, hlayout⟩ <;>
    rw [hlayout]
  · refine ⟨⟨?_, ?_⟩, ?_, ?_⟩
    · rintro ⟨h, s, hs⟩
      cases hs
    · rintro ⟨before, n, after, hns, hn⟩
      exact absurd (hok before n after hns) hn
    · intro h s hs
      cases hs
    · intro s hs
      cases hs
      exact ⟨rfl, _, _, rfl, rfl⟩
  · refine ⟨⟨?_, ?_⟩, ?_, ?_⟩
    · intro _
      exact ⟨before, n, after, hns, hbreach.broken⟩
    · intro _
      exact ⟨_, _, rfl⟩
    · intro h s hs
      cases hs
      exact ⟨before, n, after, e, hns, hbefore, hbreach, rfl⟩
    · intro s hs
      cases hs

/-- In `local int x = 1; global int x; print y;` the second declaration is the first breach. -/
theorem TokenStream.layout_error_iff_conflict :
    let local₁ : Token := ⟨.keyword .localWord, "local", 1⟩
    let global₂ : Token := ⟨.keyword .globalWord, "global", 2⟩
    let print₃ : Token := ⟨.keyword .printWord, "print", 3⟩
    let one : Token := ⟨.intLiteral, "1", 1⟩
    let x₁ : Ident := ⟨⟨.identifier, "x", 1⟩, "x"⟩
    let x₂ : Ident := ⟨⟨.identifier, "x", 2⟩, "x"⟩
    let y₃ : Ident := ⟨⟨.identifier, "y", 3⟩, "y"⟩
    let p : Program := ⟨local₁, [.decl local₁ .localVar x₁ (some (.int one 1)),
      .decl global₂ .globalVar x₂ none, .print print₃ (.ident y₃)]⟩
    ∃ before n after e, p.node.namings = before ++ n :: after ∧ WellScoped before ∧
      n.Breach before e ∧
      p.node.layout ⟨{}, {}⟩ = .error (.rejected e) ⟨{}, ⟨[⟨"x", -8, 1⟩], false⟩⟩ ∧
      e.line = 2 ∧ e.message = "global conflicts with local declared at line 1" := by
  intro local₁ global₂ print₃ one x₁ x₂ y₃ p
  let intWord : Token := ⟨.keyword .intWord, "int", 1⟩
  let semicolon : Token := ⟨.char ';', ";", 1⟩
  have hp : (TokenStream.parse ⟨[local₁, intWord, x₁.tok, ⟨.char '=', "=", 1⟩, one, semicolon,
      global₂, intWord, x₂.tok, semicolon, print₃, y₃.tok, semicolon], .endOfFile 3⟩).result =
      .ok p := rfl
  have hlayout : p.node.layout ⟨{}, {}⟩ = .error (.rejected ⟨2, "x", .globalHitsLocal 1⟩)
      ⟨{}, ⟨[⟨"x", -8, 1⟩], false⟩⟩ := rfl
  obtain ⟨before, n, after, e, hns, hbefore, hbreach, he⟩ :=
    (layout_error_iff _ hp).2.1 _ _ hlayout
  cases he
  exact ⟨before, n, after, _, hns, hbefore, hbreach, hlayout, rfl, by decide +kernel⟩

end IntLang
