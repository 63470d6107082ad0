import IntLang.Proofs.Scope.Places
import IntLang.Scope.Session

/-! Runs over one table with any number of builders. An action can change a session in a few ways
only. So what the table and the builders hold is what was declared in them, in this order, and
nothing that comes later touches it. -/
namespace IntLang
namespace Session

/-- The answer to an action. -/
def ask (s : Session) (a : Action) : Answer := (s.step a).2

/-- The session after some actions. -/
def after (s : Session) (as : List Action) : Session := (s.run as).1

theorem after_cons (s : Session) (a : Action) (as : List Action) :
    s.after (a :: as) = (s.step a).1.after as := rfl

/-- Where an entry is kept: in the table, or in the builder of a number. -/
inductive Home where
  | table
  | builder (n : Nat)
  deriving DecidableEq, Repr

structure Declared where
  home : Home
  name : Text
  line : Int
  deriving DecidableEq, Repr

/-- What an action declares, if its answer says that it did. -/
def declared? : Action → Answer → Option Declared
  | .declareGlobal name line, .globalEntry _ => some ⟨.table, name, line⟩
  | .builderGlobal _ name line, .done => some ⟨.table, name, line⟩
  | .builderLocal n name line, .done => some ⟨.builder n, name, line⟩
  | _, _ => none

/-- The declarations of a run that succeed, in order. -/
def declared (s : Session) : List Action → List Declared
  | [] => []
  | a :: as => (declared? a (s.ask a)).toList ++ (s.step a).1.declared as

/-- The locals of the builder of a number; none if there is no such builder. -/
def localsOf (builders : List Builder) (n : Nat) : List Local :=
  builders[n]?.elim [] Builder.locals

theorem localsOf_new (builders : List Builder) (n : Nat) :
    localsOf (builders ++ [({} : Builder)]) n = localsOf builders n := by
  rcases Nat.lt_trichotomy n builders.length with h | rfl | h
  · rw [localsOf, List.getElem?_append_left h, localsOf]
  · simp [localsOf]
  · have h' : (builders ++ [({} : Builder)]).length ≤ n := by
      rw [List.length_append, List.length_singleton]
      omega
    rw [localsOf, localsOf, List.getElem?_eq_none h', List.getElem?_eq_none (Nat.le_of_lt h)]

theorem localsOf_set {builders : List Builder} {n : Nat} {b : Builder}
    (hb : builders[n]? = some b) (b' : Builder) (m : Nat) :
    localsOf (builders.set n b') m = if n = m then b'.locals else localsOf builders m := by
  have hn : n < builders.length := (List.getElem?_eq_some_iff.mp hb).1
  by_cases h : n = m
  · subst h
    simp [localsOf, hn]
  · simp [localsOf, List.getElem?_set_ne h, h]

/-- The entries of the table or of a builder, as they were declared. -/
def entriesIn (s : Session) : Home → List Declared
  | .table => s.table.globals.map fun g => ⟨.table, g.name, g.line⟩
  | .builder n => (localsOf s.builders n).map fun l => ⟨.builder n, l.name, l.line⟩

/-- What an action can do, with its answer: nothing, one more global, a new builder, one more local
of a builder, or a frame from a builder. -/
inductive Change (s : Session) : Action → Session × Answer → Prop
  | nothing {a : Action} {answer : Answer} (none : declared? a answer = none) :
      Change s a (s, answer)
  | global {a : Action} {answer : Answer} {name : Text} {line : Int} {t : Table}
      (one : declared? a answer = some ⟨.table, name, line⟩)
      (h : s.table.declare name line = .ok t) : Change s a ({ s with table := t }, answer)
  | builder : Change s .newBuilder
      ({ s with builders := s.builders ++ [{}] }, .number s.builders.length)
  | localVar {n : Nat} {b b' : Builder} {name : Text} {line : Int}
      (hb : s.builders[n]? = some b) (h : b.declareLocal s.table name line = .ok b') :
      Change s (.builderLocal n name line) ({ s with builders := s.builders.set n b' }, .done)
  | frame {n : Nat} {b b' : Builder} {f : Frame} (hb : s.builders[n]? = some b)
      (h : b.finish = .ok (f, b')) : Change s (.finish n)
        ({ s with builders := s.builders.set n b', frames := s.frames ++ [f] },
          .finished s.frames.length f)

theorem step_change (s : Session) (a : Action) : s.Change a ((s.step a).1, s.ask a) := by
  change s.Change a (s.step a)
  cases a with
  | declareGlobal name line =>
    simp only [step]
    cases h : s.table.declare name line with
    | ok t => exact .global rfl h
    | error e => exact .nothing rfl
  | newBuilder => exact .builder
  | builderGlobal n name line =>
    simp only [step, withBuilder]
    cases s.builders[n]? with
    | none => exact .nothing rfl
    | some b =>
      cases h : b.declareGlobal s.table name line with
      | ok t =>
        simp only [h]
        exact .global rfl (Builder.declareGlobal_eq_ok.mp h).2.2
      | error e =>
        simp only [h]
        exact .nothing rfl
  | builderLocal n name line =>
    simp only [step, withBuilder]
    cases hb : s.builders[n]? with
    | none => exact .nothing rfl
    | some b =>
      cases h : b.declareLocal s.table name line with
      | ok b' =>
        simp only [h]
        exact .localVar hb h
      | error e =>
        simp only [h]
        exact .nothing rfl
  | lookup n name =>
    simp only [step, withBuilder]
    cases s.builders[n]? <;> exact .nothing rfl
  | finish n =>
    simp only [step, withBuilder]
    cases hb : s.builders[n]? with
    | none => exact .nothing rfl
    | some b =>
      cases h : b.finish with
      | ok p =>
        simp only [h]
        exact .frame hb h
      | error e =>
        simp only [h]
        exact .nothing rfl
  | findGlobal _ | listGlobals | resolve _ _ | label _ _ | offset _ _ | size _ | listLocals _ =>
    exact .nothing rfl

namespace Change

variable {s s' : Session} {a : Action} {answer : Answer}

/-- An action that fails has done nothing. -/
theorem eq_of_halted {h : Halt} (c : s.Change a (s', .halted h)) : s' = s := by
  cases c with
  | nothing => rfl
  | global one => cases a <;> cases one

/-- A declaration adds its entry at the end of its home, and nothing else adds or takes one. -/
theorem entriesIn (c : s.Change a (s', answer)) (home : Home) :
    s'.entriesIn home =
      s.entriesIn home ++ (declared? a answer).toList.filter (·.home = home) := by
  cases home with
  | table =>
    cases c with
    | nothing none => simp [none]
    | global one h =>
      obtain ⟨_, rfl⟩ := Table.declare_eq_ok.mp h
      simp [Session.entriesIn, one, Table.entry]
    | builder | localVar | frame => simp [Session.entriesIn, declared?]
  | builder m =>
    cases c with
    | nothing none => simp [none]
    | global one => simp [Session.entriesIn, one]
    | builder => simp [Session.entriesIn, declared?, localsOf_new]
    | @localVar n b b' name line hb h =>
      obtain ⟨_, _, _, rfl⟩ := Builder.declareLocal_eq_ok.mp h
      simp only [Session.entriesIn, localsOf_set hb]
      by_cases hm : n = m
      · subst hm
        simp [localsOf, hb, declared?, Builder.entry]
      · simp [hm, declared?]
    | @frame n b b' f hb h =>
      obtain ⟨_, _, rfl⟩ := Builder.finish_eq_ok.mp h
      simp only [Session.entriesIn, localsOf_set hb]
      by_cases hm : n = m
      · subst hm
        simp [localsOf, hb, declared?]
      · simp [hm, declared?]

end Change

/-- What the table and the builders hold is what was declared in them. -/
theorem entriesIn_after (s : Session) (as : List Action) (home : Home) :
    (s.after as).entriesIn home =
      s.entriesIn home ++ (s.declared as).filter (·.home = home) := by
  induction as generalizing s with
  | nil => simp [after, run, declared]
  | cons a as ih =>
    rw [after_cons, ih, (s.step_change a).entriesIn, declared, List.filter_append,
      List.append_assoc]

theorem entriesIn_after_empty (as : List Action) (home : Home) :
    (({} : Session).after as).entriesIn home =
      (({} : Session).declared as).filter (·.home = home) := by
  rw [entriesIn_after]
  cases home <;> rfl

/-- All that is declared stays where it is, and a finished builder stays as it is. -/
structure Grows (s s' : Session) : Prop where
  globals : s.table.globals <+: s'.table.globals
  builders : ∀ (n : Nat) (b : Builder), s.builders[n]? = some b →
    ∃ b', s'.builders[n]? = some b' ∧ b.locals <+: b'.locals ∧ (b.finished = true → b' = b)
  frames : s.frames <+: s'.frames

theorem Grows.refl (s : Session) : s.Grows s :=
  ⟨List.prefix_rfl, fun _ b hb => ⟨b, hb, List.prefix_rfl, fun _ => rfl⟩, List.prefix_rfl⟩

theorem Grows.trans {s s' s'' : Session} (h : s.Grows s') (h' : s'.Grows s'') : s.Grows s'' := by
  refine ⟨h.globals.trans h'.globals, ?_, h.frames.trans h'.frames⟩
  intro n b hb
  obtain ⟨b', hb', hl, hf⟩ := h.builders n b hb
  obtain ⟨b'', hb'', hl', hf'⟩ := h'.builders n b' hb'
  refine ⟨b'', hb'', hl.trans hl', ?_⟩
  intro finished
  obtain rfl := hf finished
  exact hf' finished

/-- The other builders stay as they are when one is set. -/
theorem exists_builder_of_set {R : Builder → Builder → Prop} (refl : ∀ c, R c c)
    {builders : List Builder} {n : Nat} {b b' : Builder} (hb : builders[n]? = some b)
    (h : R b b') (m : Nat) (c : Builder) (hc : builders[m]? = some c) :
    ∃ c', (builders.set n b')[m]? = some c' ∧ R c c' := by
  by_cases hm : n = m
  · subst hm
    obtain rfl : b = c := Option.some.inj (hb.symm.trans hc)
    exact ⟨b', List.getElem?_set_self (List.getElem?_eq_some_iff.mp hb).1, h⟩
  · exact ⟨c, by rw [List.getElem?_set_ne hm, hc], refl c⟩

/-- A builder that is not finished may get more locals. -/
theorem builders_grow {builders : List Builder} {n : Nat} {b b' : Builder}
    (hb : builders[n]? = some b) (hl : b.locals <+: b'.locals) (hf : b.finished = false) :
    ∀ (m : Nat) (c : Builder), builders[m]? = some c → ∃ c', (builders.set n b')[m]? = some c' ∧
      c.locals <+: c'.locals ∧ (c.finished = true → c' = c) := by
  refine exists_builder_of_set (fun _ => ⟨List.prefix_rfl, fun _ => rfl⟩) hb ⟨hl, ?_⟩
  intro finished
  rw [hf] at finished
  cases finished

theorem Change.grows {s s' : Session} {a : Action} {answer : Answer}
    (c : s.Change a (s', answer)) : s.Grows s' := by
  cases c with
  | nothing => exact .refl s
  | global _ h =>
    obtain ⟨_, rfl⟩ := Table.declare_eq_ok.mp h
    exact ⟨List.prefix_append _ _, (Grows.refl s).builders, List.prefix_rfl⟩
  | builder =>
    refine ⟨List.prefix_rfl, ?_, List.prefix_rfl⟩
    intro n b hb
    have hn : n < s.builders.length := (List.getElem?_eq_some_iff.mp hb).1
    exact ⟨b, by rw [List.getElem?_append_left hn, hb], List.prefix_rfl, fun _ => rfl⟩
  | localVar hb h =>
    obtain ⟨hf, _, _, rfl⟩ := Builder.declareLocal_eq_ok.mp h
    exact ⟨List.prefix_rfl, builders_grow hb (List.prefix_append _ _) hf, List.prefix_rfl⟩
  | frame hb h =>
    obtain ⟨hf, _, rfl⟩ := Builder.finish_eq_ok.mp h
    exact ⟨List.prefix_rfl, builders_grow hb List.prefix_rfl hf, List.prefix_append _ _⟩

theorem grows_after (s : Session) (as : List Action) : s.Grows (s.after as) := by
  induction as generalizing s with
  | nil => exact .refl s
  | cons a as ih => exact (s.step_change a).grows.trans (ih _)

structure WellFormed (s : Session) : Prop where
  table : s.table.WellFormed
  builders : ∀ b ∈ s.builders, b.WellFormed

theorem wellFormed_empty : WellFormed {} := ⟨⟨by simp, by simp⟩, by simp⟩

theorem Change.wellFormed {s s' : Session} {a : Action} {answer : Answer}
    (c : s.Change a (s', answer)) (h : s.WellFormed) : s'.WellFormed := by
  cases c with
  | nothing => exact h
  | global _ hd => exact ⟨h.table.declare hd, h.builders⟩
  | builder =>
    refine ⟨h.table, ?_⟩
    intro b hb
    rcases List.mem_append.mp hb with hb | hb
    · exact h.builders b hb
    · rw [List.mem_singleton.mp hb]
      exact ⟨by simp, by simp⟩
  | localVar hb hd =>
    refine ⟨h.table, ?_⟩
    intro c hc
    rcases List.mem_or_eq_of_mem_set hc with hc | rfl
    · exact h.builders c hc
    · exact (h.builders _ (List.mem_of_getElem? hb)).declareLocal hd
  | frame hb hd =>
    obtain ⟨_, _, rfl⟩ := Builder.finish_eq_ok.mp hd
    refine ⟨h.table, ?_⟩
    intro c hc
    rcases List.mem_or_eq_of_mem_set hc with hc | rfl
    · exact h.builders c hc
    · have hw := h.builders _ (List.mem_of_getElem? hb)
      exact ⟨hw.names, hw.offsets⟩

theorem WellFormed.after {s : Session} (h : s.WellFormed) (as : List Action) :
    (s.after as).WellFormed := by
  induction as generalizing s with
  | nil => exact h
  | cons a as ih => exact ih ((s.step_change a).wellFormed h)

/-- Every identifier of a reader is a word, and globals that are named by words have labels of
their own, however they were declared. -/
theorem distinct_globalLabels (as : List Action) :
    (∀ r : Reader, ∀ t ∈ r.scan.1.tokens, t.kind = .identifier → t.lexeme.IsWord) ∧
    ((∀ d ∈ ({} : Session).declared as, d.home = .table → d.name.IsWord) →
      ((({} : Session).after as).table.globals.map Global.label).Nodup) := by
  refine ⟨Reader.scan_isWord, ?_⟩
  intro words
  refine (wellFormed_empty.after as).table.nodup_label ?_
  intro g hg
  have hmem : ⟨.table, g.name, g.line⟩ ∈ (({} : Session).after as).entriesIn .table :=
    List.mem_map_of_mem hg
  rw [entriesIn_after_empty] at hmem
  exact words _ (List.mem_of_mem_filter hmem) rfl

/-- Names of both kinds, declared in the table and through two builders. The global `7` is refused,
since it is a local there. -/
theorem distinct_globalLabels_mixed :
    let as : List Action := [.declareGlobal "a" 1, .newBuilder, .builderGlobal 0 "число" 2,
      .builderLocal 0 "7" 3, .builderGlobal 0 "7" 4, .builderGlobal 0 "_1" 5, .newBuilder,
      .builderGlobal 1 "$" 6, .declareGlobal "b" 7]
    (({} : Session).after as).table.globals.map Global.label =
      (["g_a", "g_1", "g__1", "g_3", "g_b"] : List Text) ∧
    ((({} : Session).after as).table.globals.map Global.label).Nodup := by
  intro as
  exact ⟨by decide, (distinct_globalLabels as).2 (by decide)⟩

end Session
end IntLang
