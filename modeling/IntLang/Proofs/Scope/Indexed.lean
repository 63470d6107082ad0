import Mathlib.Data.List.Induction
import IntLang.Proofs.Scope.Runs
import IntLang.Scope.Indexed

/-! The two ways in which entries are kept agree. Every declaration puts its entry into the map and
at the end of the order, or into neither. So in every run the maps hold just the entries of the
orders, and the answers are those of a session that has the orders only. -/
namespace IntLang

theorem NameMap.get?_set {α : Type} (m : NameMap α) (name other : Text) (value : α) :
    (m.set name value).get? other = if name = other then some value else m.get? other := by
  by_cases h : name = other
  · simp [get?, set, h]
  · have hkept : (m.pairs.filter fun p => p.1 ≠ name).find? (fun p => p.1 = other) =
        m.pairs.find? fun p => p.1 = other := by
      rw [List.find?_filter]
      congr 1
      funext p
      by_cases hp : p.1 = other
      · simp [hp, Ne.symm h]
      · simp [hp]
    rw [if_neg h, get?, get?, set, List.find?_cons_of_neg (by simpa using h), hkept]

namespace Ledger

variable {α : Type} {nameOf : α → Text} {l : Ledger α}

/-- The map and the order hold the same entries, no two of one name, and a name leads to the entry
that has it. -/
structure Agrees (nameOf : α → Text) (l : Ledger α) : Prop where
  same : l.named.pairs.Perm (l.order.map fun e => (nameOf e, e))
  names : (l.order.map nameOf).Nodup
  found : ∀ name e, l.find? name = some e ↔ e ∈ l.order ∧ nameOf e = name

theorem agrees_empty : ({} : Ledger α).Agrees nameOf :=
  ⟨.refl [], List.nodup_nil, by simp [find?, NameMap.get?]⟩

/-- To look a name up in the map is to look for it in the order. -/
theorem Agrees.find?_eq (h : l.Agrees nameOf) (name : Text) :
    l.find? name = l.order.find? fun e => nameOf e = name := by
  apply Option.ext
  intro e
  rw [h.found, find?_eq_some_iff_of_nodup h.names]

theorem find?_add (l : Ledger α) (name other : Text) (e : α) :
    (l.add name e).find? other = if name = other then some e else l.find? other :=
  l.named.get?_set name other e

/-- An entry of a new name is added to both. -/
theorem Agrees.add (h : l.Agrees nameOf) {e : α} (fresh : l.find? (nameOf e) = none) :
    (l.add (nameOf e) e).Agrees nameOf := by
  have hnone : l.order.find? (fun x => nameOf x = nameOf e) = none := by
    rw [← h.find?_eq, fresh]
  have hne : ∀ x ∈ l.order, nameOf x ≠ nameOf e := by
    intro x hx
    simpa using List.find?_eq_none.mp hnone x hx
  refine ⟨?_, nodup_map_append h.names hnone, ?_⟩
  · -- no pair of the map gives way to the new one
    have hkept : (l.named.pairs.filter fun p => p.1 ≠ nameOf e) = l.named.pairs := by
      rw [List.filter_eq_self]
      intro p hp
      obtain ⟨x, hx, rfl⟩ := List.mem_map.mp (h.same.mem_iff.mp hp)
      simpa using hne x hx
    simp only [Ledger.add, NameMap.set, hkept, List.map_append, List.map_cons, List.map_nil]
    exact (h.same.cons _).trans (List.perm_append_singleton _ _).symm
  · intro name x
    rw [find?_add]
    by_cases hname : nameOf e = name
    · rw [if_pos hname]
      constructor
      · rintro ⟨⟩
        exact ⟨by simp [Ledger.add], hname⟩
      · rintro ⟨hx, hxname⟩
        rcases List.mem_append.mp hx with hx | hx
        · exact absurd (hxname.trans hname.symm) (hne x hx)
        · rw [List.mem_singleton.mp hx]
    · rw [if_neg hname, h.found]
      constructor
      · rintro ⟨hx, hxname⟩
        exact ⟨List.mem_append_left _ hx, hxname⟩
      · rintro ⟨hx, hxname⟩
        rcases List.mem_append.mp hx with hx | hx
        · exact ⟨hx, hxname⟩
        · rw [List.mem_singleton.mp hx] at hxname
          exact absurd hxname hname

theorem ofOrder_concat (nameOf : α → Text) (xs : List α) (x : α) :
    ofOrder nameOf (xs ++ [x]) = (ofOrder nameOf xs).add (nameOf x) x := by
  simp [ofOrder, add, List.foldl_append]

theorem agrees_ofOrder {xs : List α} (h : (xs.map nameOf).Nodup) :
    (ofOrder nameOf xs).Agrees nameOf := by
  induction xs using List.reverseRecOn with
  | nil => exact agrees_empty
  | append_singleton xs x ih =>
    rw [List.map_append, List.nodup_append] at h
    have hxs := ih h.1
    rw [ofOrder_concat]
    refine hxs.add ?_
    rw [hxs.find?_eq, List.find?_eq_none]
    intro e he hname
    exact h.2.2 (nameOf e) (List.mem_map_of_mem he) (nameOf x) (by simp) (by simpa using hname)

/-- Entries once made stay as they are, in the map and in the order, which grows at its end. -/
structure Grows (l l' : Ledger α) : Prop where
  order : l.order <+: l'.order
  named : ∀ name e, l.find? name = some e → l'.find? name = some e

theorem grows_ofOrder {xs ys : List α} (h : xs <+: ys) (hys : (ys.map nameOf).Nodup) :
    (ofOrder nameOf xs).Grows (ofOrder nameOf ys) := by
  have hxs : (xs.map nameOf).Nodup := (h.map nameOf).sublist.nodup hys
  refine ⟨h, ?_⟩
  intro name e he
  obtain ⟨hmem, hname⟩ := ((agrees_ofOrder hxs).found name e).mp he
  exact ((agrees_ofOrder hys).found name e).mpr ⟨h.subset hmem, hname⟩

end Ledger

/-! A session of orders, with the maps that belong to them. -/

def Table.indexed (t : Table) : Indexed.Table := .ofOrder Global.name t.globals

def Builder.indexed (b : Builder) : Indexed.Builder := ⟨.ofOrder Local.name b.locals, b.finished⟩

def Frame.indexed (f : Frame) : Indexed.Frame := ⟨.ofOrder Local.name f.locals, f.size, f.fixed⟩

def Session.indexed (s : Session) : Indexed.Session where
  table := s.table.indexed
  builders := s.builders.map Builder.indexed
  frames := s.frames.map Frame.indexed

theorem Table.WellFormed.find?_indexed {t : Table} (h : t.WellFormed) (name : Text) :
    t.indexed.find? name = t.find? name := (Ledger.agrees_ofOrder h.names).find?_eq name

/-- A declaration makes the same entry, or is refused for the same one. -/
theorem Table.WellFormed.declare_indexed {t : Table} (h : t.WellFormed) (name : Text) (line : Int) :
    t.indexed.declare name line =
      (t.declare name line).map fun t' => (t.entry name line, t'.indexed) := by
  unfold Indexed.Table.declare Table.declare
  rw [h.find?_indexed]
  cases t.find? name with
  | some previous => rfl
  | none =>
    have hadd := Ledger.ofOrder_concat Global.name t.globals (t.entry name line)
    exact congrArg (fun t' => Except.ok (t.entry name line, t')) hadd.symm

theorem Builder.check_indexed (b : Builder) : b.indexed.check = b.check := rfl

namespace Builder.WellFormed

variable {b : Builder} (h : b.WellFormed)
include h

theorem find?_indexed (name : Text) : b.indexed.locals.find? name = b.find? name :=
  (Ledger.agrees_ofOrder h.names).find?_eq name

theorem declareGlobal_indexed {t : Table} (ht : t.WellFormed) (name : Text) (line : Int) :
    b.indexed.declareGlobal t.indexed name line =
      (b.declareGlobal t name line).map Table.indexed := by
  unfold Indexed.Builder.declareGlobal Builder.declareGlobal
  rw [b.check_indexed, h.find?_indexed, ht.declare_indexed]
  cases b.check with
  | error e => rfl
  | ok _ =>
    cases b.find? name with
    | some previous => rfl
    | none => cases t.declare name line <;> rfl

theorem declareLocal_indexed {t : Table} (ht : t.WellFormed) (name : Text) (line : Int) :
    b.indexed.declareLocal t.indexed name line =
      (b.declareLocal t name line).map Builder.indexed := by
  unfold Indexed.Builder.declareLocal Builder.declareLocal
  rw [b.check_indexed, h.find?_indexed, ht.find?_indexed]
  cases b.check with
  | error e => rfl
  | ok _ =>
    cases b.find? name with
    | some previous => rfl
    | none =>
      cases t.find? name with
      | some previous => rfl
      | none =>
        have hadd := Ledger.ofOrder_concat Local.name b.locals (b.entry name line)
        exact congrArg (fun l => Except.ok (Indexed.Builder.mk l b.finished)) hadd.symm

theorem lookup_indexed {t : Table} (ht : t.WellFormed) (name : Text) :
    b.indexed.lookup t.indexed name = b.lookup t name := by
  rw [Indexed.Builder.lookup, h.find?_indexed, ht.find?_indexed, Builder.lookup]

end Builder.WellFormed

theorem Builder.finish_indexed (b : Builder) :
    b.indexed.finish = b.finish.map fun p => (p.1.indexed, p.2.indexed) := by
  unfold Indexed.Builder.finish Builder.finish
  rw [b.check_indexed]
  cases b.check <;> rfl

namespace Frame

variable {f : Frame} (h : (f.locals.map Local.name).Nodup)
include h

theorem find?_indexed (name : Text) : f.indexed.locals.find? name = f.find? name :=
  (Ledger.agrees_ofOrder h).find?_eq name

theorem resolve_indexed {t : Table} (ht : t.WellFormed) (name : Text) :
    f.indexed.resolve t.indexed name = f.resolve t name := by
  unfold Indexed.Frame.resolve Frame.resolve
  rw [find?_indexed h, ht.find?_indexed]
  rfl

theorem globalLabel_indexed {t : Table} (ht : t.WellFormed) (name : Text) :
    f.indexed.globalLabel t.indexed name = f.globalLabel t name := by
  unfold Indexed.Frame.globalLabel Frame.globalLabel
  rw [find?_indexed h, ht.find?_indexed]
  rfl

theorem localOffset_indexed (name : Text) :
    f.indexed.localOffset name = f.localOffset name := by
  unfold Indexed.Frame.localOffset Frame.localOffset
  rw [find?_indexed h]
  rfl

end Frame

namespace Session

/-- No frame has two locals of one name. -/
def FramesDistinct (s : Session) : Prop := ∀ f ∈ s.frames, (f.locals.map Local.name).Nodup

theorem framesDistinct_empty : FramesDistinct {} := fun _ hf => by cases hf

theorem Change.framesDistinct {s s' : Session} {a : Action} {answer : Answer}
    (c : s.Change a (s', answer)) (hs : s.WellFormed) (h : s.FramesDistinct) :
    s'.FramesDistinct := by
  cases c with
  | nothing | global | builder | localVar => exact h
  | frame hb hf =>
    obtain ⟨_, rfl, _⟩ := Builder.finish_eq_ok.mp hf
    intro f' hf'
    rcases List.mem_append.mp hf' with hf' | hf'
    · exact h f' hf'
    · rw [List.mem_singleton.mp hf']
      exact (hs.builders _ (List.mem_of_getElem? hb)).names

theorem FramesDistinct.frameAt {s : Session} (h : s.FramesDistinct) (n : Option Nat) :
    ((s.frameAt n).locals.map Local.name).Nodup := by
  cases n with
  | none => exact List.nodup_nil
  | some n =>
    rw [Session.frameAt, List.getD_eq_getElem?_getD]
    cases hf : s.frames[n]? with
    | none => exact List.nodup_nil
    | some f => exact h f (List.mem_of_getElem? hf)

theorem indexed_frame_empty : ({} : Frame).indexed = {} := by decide

theorem frameAt_indexed (s : Session) (n : Option Nat) :
    s.indexed.frameAt n = (s.frameAt n).indexed := by
  cases n with
  | none => exact indexed_frame_empty.symm
  | some n =>
    have hmap : s.indexed.frames[n]? = s.frames[n]?.map Frame.indexed := List.getElem?_map
    rw [Indexed.Session.frameAt, Session.frameAt, List.getD_eq_getElem?_getD,
      List.getD_eq_getElem?_getD, hmap]
    cases s.frames[n]? with
    | none => exact indexed_frame_empty.symm
    | some f => rfl

theorem getElem?_builders_indexed (s : Session) (n : Nat) :
    s.indexed.builders[n]? = s.builders[n]?.map Builder.indexed := List.getElem?_map

/-- An operation on a builder can be done with the maps if it can be done without them. -/
theorem withBuilder_indexed {s : Session} (h : s.WellFormed) (n : Nat)
    {act : Builder → Session × Answer} {act' : Indexed.Builder → Indexed.Session × Answer}
    (hact : ∀ b, s.builders[n]? = some b → b.WellFormed →
      act' b.indexed = ((act b).1.indexed, (act b).2)) :
    s.indexed.withBuilder n act' = ((s.withBuilder n act).1.indexed, (s.withBuilder n act).2) := by
  unfold Indexed.Session.withBuilder withBuilder
  rw [s.getElem?_builders_indexed]
  cases hb : s.builders[n]? with
  | none => rfl
  | some b => exact hact b hb (h.builders b (List.mem_of_getElem? hb))

/-- One action leads from the maps of a session to the maps of the next one, with the same
answer. -/
theorem step_indexed {s : Session} (h : s.WellFormed) (hf : s.FramesDistinct) (a : Action) :
    s.indexed.step a = ((s.step a).1.indexed, (s.step a).2) := by
  cases a with
  | declareGlobal name line =>
    have hd : s.indexed.table.declare name line = _ := h.table.declare_indexed name line
    simp only [Indexed.Session.step, step, hd]
    cases hok : s.table.declare name line with
    | error e => rfl
    | ok t =>
      have hfind : t.find? name = some (s.table.entry name line) := by
        have ht := h.table.declare hok
        obtain ⟨_, rfl⟩ := Table.declare_eq_ok.mp hok
        exact ht.find?_name (g := s.table.entry name line) (by simp)
      change (_, Answer.globalEntry _) = (_, Answer.globalEntry (t.find? name))
      rw [hfind]
      rfl
  | findGlobal name =>
    exact congrArg (fun g => (s.indexed, Answer.globalEntry g)) (h.table.find?_indexed name)
  | listGlobals => rfl
  | newBuilder =>
    simp only [Indexed.Session.step, step, Session.indexed, List.map_append, List.length_map]
    rfl
  | builderGlobal n name line =>
    refine withBuilder_indexed h n fun b _ hb => ?_
    have hd : b.indexed.declareGlobal s.indexed.table name line = _ :=
      hb.declareGlobal_indexed h.table name line
    simp only [hd]
    cases b.declareGlobal s.table name line <;> rfl
  | builderLocal n name line =>
    refine withBuilder_indexed h n fun b _ hb => ?_
    have hd : b.indexed.declareLocal s.indexed.table name line = _ :=
      hb.declareLocal_indexed h.table name line
    simp only [hd]
    cases b.declareLocal s.table name line with
    | error e => rfl
    | ok b' =>
      change ({ s.indexed with builders := (s.builders.map Builder.indexed).set n b'.indexed }, _) = _
      rw [← List.map_set]
      rfl
  | lookup n name =>
    refine withBuilder_indexed h n fun b _ hb => ?_
    exact congrArg (fun scope => (s.indexed, Answer.scope scope)) (hb.lookup_indexed h.table name)
  | finish n =>
    refine withBuilder_indexed h n fun b _ hb => ?_
    simp only [b.finish_indexed]
    cases b.finish with
    | error e => rfl
    | ok p =>
      change (Indexed.Session.mk s.table.indexed
          ((s.builders.map Builder.indexed).set n p.2.indexed)
          (s.frames.map Frame.indexed ++ [p.1.indexed]),
        Answer.finished (s.frames.map Frame.indexed).length ⟨p.1.locals, p.1.fixed⟩) = _
      rw [← List.map_set, List.length_map]
      simp only [Session.indexed, List.map_append, List.map_cons, List.map_nil]
  | resolve n name =>
    rw [step, ← Frame.resolve_indexed (hf.frameAt n) h.table name, ← s.frameAt_indexed]
    rfl
  | label n name =>
    rw [step, ← Frame.globalLabel_indexed (hf.frameAt n) h.table name, ← s.frameAt_indexed]
    rfl
  | offset n name =>
    rw [step, ← Frame.localOffset_indexed (hf.frameAt n) name, ← s.frameAt_indexed]
    rfl
  | size n => exact congrArg (fun f => (s.indexed, Answer.number f.size)) (s.frameAt_indexed n)
  | listLocals n =>
    exact congrArg (fun f => (s.indexed, Answer.localEntries f.locals.order)) (s.frameAt_indexed n)

/-- A run with the maps is the run without them, with the maps of its last session. -/
theorem run_indexed {s : Session} (h : s.WellFormed) (hf : s.FramesDistinct) (as : List Action) :
    s.indexed.run as = ((s.after as).indexed, (s.run as).2) := by
  induction as generalizing s with
  | nil => rfl
  | cons a as ih =>
    have c := s.step_change a
    have hrest := ih (c.wellFormed h) (c.framesDistinct h hf)
    simp only [Indexed.Session.run, step_indexed h hf, hrest]
    rfl

theorem FramesDistinct.after {s : Session} (hf : s.FramesDistinct) (h : s.WellFormed)
    (as : List Action) : (s.after as).FramesDistinct := by
  induction as generalizing s with
  | nil => exact hf
  | cons a as ih =>
    have c := s.step_change a
    exact ih (c.framesDistinct h hf) (c.wellFormed h)

end Session

namespace Indexed.Session

open IntLang.Session (Action Answer Home Declared declared?)

def ask (s : Session) (a : Action) : Answer := (s.step a).2

def after (s : Session) (as : List Action) : Session := (s.run as).1

/-- The declarations of a run that succeed, in order. -/
def declared (s : Session) : List Action → List Declared
  | [] => []
  | a :: as => (declared? a (s.ask a)).toList ++ (s.step a).1.declared as

/-- The entries of the table or of a builder, as they were declared. -/
def entriesIn (s : Session) : Home → List Declared
  | .table => s.table.order.map fun g => ⟨.table, g.name, g.line⟩
  | .builder n =>
    (s.builders[n]?.elim [] (·.locals.order)).map fun l => ⟨.builder n, l.name, l.line⟩

/-- All that is declared stays where it is, and a finished builder stays as it is. -/
structure Grows (s s' : Session) : Prop where
  table : s.table.Grows s'.table
  builders : ∀ (n : Nat) (b : Builder), s.builders[n]? = some b →
    ∃ b', s'.builders[n]? = some b' ∧ b.locals.Grows b'.locals ∧ (b.finished = true → b' = b)
  frames : s.frames <+: s'.frames

end Indexed.Session

namespace Session

variable {s : Session}

theorem declared_indexed (h : s.WellFormed) (hf : s.FramesDistinct) (as : List Action) :
    s.indexed.declared as = s.declared as := by
  induction as generalizing s with
  | nil => rfl
  | cons a as ih =>
    have c := s.step_change a
    have hrest := ih (c.wellFormed h) (c.framesDistinct h hf)
    rw [Indexed.Session.declared, declared, Indexed.Session.ask, step_indexed h hf, hrest, ask]

theorem entriesIn_indexed (s : Session) (home : Home) :
    s.indexed.entriesIn home = s.entriesIn home := by
  cases home with
  | table => rfl
  | builder n =>
    rw [Indexed.Session.entriesIn, entriesIn, localsOf, s.getElem?_builders_indexed]
    cases s.builders[n]? <;> rfl

theorem Grows.indexed {s' : Session} (h : s.Grows s') (hs' : s'.WellFormed) :
    s.indexed.Grows s'.indexed := by
  refine ⟨Ledger.grows_ofOrder h.globals hs'.table.names, ?_, h.frames.map _⟩
  intro n b hb
  rw [getElem?_builders_indexed] at hb
  obtain ⟨p, hp, rfl⟩ := Option.map_eq_some_iff.mp hb
  obtain ⟨p', hp', hlocals, hfinished⟩ := h.builders n p hp
  have hw := hs'.builders p' (List.mem_of_getElem? hp')
  refine ⟨p'.indexed, ?_, Ledger.grows_ofOrder hlocals hw.names, ?_⟩
  · rw [getElem?_builders_indexed, hp', Option.map_some]
  · intro finished
    rw [hfinished finished]

/-- After any run the map and the order of the table hold the same entries, and so do those of every
builder and frame: what was declared there, in this order, one entry for a name. The locals of a
builder lie one word below the other. All entries stay where they are in whatever comes later, and
an action that fails changes nothing. The answers are those of a session without maps. -/
theorem ledgers_agree_after (as : List Action) :
    let s := ({} : Indexed.Session).after as
    (∀ home, s.entriesIn home = (({} : Indexed.Session).declared as).filter (·.home = home)) ∧
    s.table.Agrees Global.name ∧
    s.ask .listGlobals = .globalEntries s.table.order ∧
    (∀ name g, s.ask (.findGlobal name) = .globalEntry (some g) ↔
      g ∈ s.table.order ∧ g.name = name) ∧
    (∀ b ∈ s.builders, b.locals.Agrees Local.name ∧
      ∀ (i : Nat) l, b.locals.order[i]? = some l → l.offset = -8 * (i + 1)) ∧
    (∀ f ∈ s.frames, f.locals.Agrees Local.name) ∧
    (∀ more, s.Grows (s.after more)) ∧
    (∀ a h, s.ask a = .halted h → (s.step a).1 = s) ∧
    ({} : Indexed.Session).run as =
      ((({} : Session).after as).indexed, (({} : Session).run as).2) := by
  intro s
  let p := ({} : Session).after as
  have hp : p.WellFormed := wellFormed_empty.after as
  have hpf : p.FramesDistinct := framesDistinct_empty.after wellFormed_empty as
  have hrun := run_indexed wellFormed_empty framesDistinct_empty as
  have hs : s = p.indexed := congrArg Prod.fst hrun
  rw [hs]
  refine ⟨?_, Ledger.agrees_ofOrder hp.table.names, rfl, ?_, ?_, ?_, ?_, ?_, hrun⟩
  · intro home
    have hdeclared := declared_indexed wellFormed_empty framesDistinct_empty as
    rw [p.entriesIn_indexed, entriesIn_after_empty, ← hdeclared]
    rfl
  · intro name g
    have answered : p.indexed.ask (.findGlobal name) = .globalEntry (p.indexed.table.find? name) :=
      rfl
    rw [answered, Answer.globalEntry.injEq]
    exact (Ledger.agrees_ofOrder hp.table.names).found name g
  · intro b hb
    obtain ⟨q, hq, rfl⟩ := List.mem_map.mp hb
    have hw := hp.builders q hq
    refine ⟨Ledger.agrees_ofOrder hw.names, ?_⟩
    intro i l hl
    rw [hw.offsets i l hl, wordSize]
    omega
  · intro f hf
    obtain ⟨q, hq, rfl⟩ := List.mem_map.mp hf
    exact Ledger.agrees_ofOrder (hpf q hq)
  · intro more
    rw [Indexed.Session.after, run_indexed hp hpf]
    exact (p.grows_after more).indexed (hp.after more)
  · intro a h halted
    -- the session without maps is the same after the action, so its maps are too
    have c := p.step_change a
    have hstep := step_indexed hp hpf a
    rw [Indexed.Session.ask, hstep] at halted
    rw [ask, halted] at c
    rw [hstep, c.eq_of_halted]

end Session
end IntLang
