import IntLang.Proofs.Scope.Binding

/-! What a frame answers after it is fixed. Its locals are fixed with it, but it looks for globals
in the table, which goes on growing. So every answer stays but one sort: a name that was unknown to
the frame is a global for it as soon as it is one in the table. -/
namespace IntLang
namespace Session

/-- The action asks the frame of a number about something. -/
def Action.Asks (k : Nat) : Action → Prop
  | .resolve frame _ => frame = some k
  | .label frame _ => frame = some k
  | .offset frame _ => frame = some k
  | .size frame => frame = some k
  | .listLocals frame => frame = some k
  | _ => False

theorem exists_builder_of_ask_finish {s : Session} {n k : Nat} {f : Frame}
    (h : s.ask (.finish n) = .finished k f) : ∃ b, s.builders[n]? = some b := by
  cases hb : s.builders[n]? with
  | none => simp [ask, step, withBuilder, hb] at h
  | some b => exact ⟨b, rfl⟩

/-- The name was unknown to the frame of a number, and is a global for it by now. -/
structure Revealed (s t : Session) (k : Nat) (name : Text) (g : Global) : Prop where
  unknown : s.ask (.resolve (some k) name) = .scope .unknown
  noLabel : s.ask (.label (some k) name) = .halted (.misused (.noGlobal name))
  declared : t.ask (.findGlobal name) = .globalEntry (some g)
  resolved : t.ask (.resolve (some k) name) = .scope .globalVar
  label : t.ask (.label (some k) name) = .text g.label

namespace Finished

variable {s : Session} {n k : Nat} {b : Builder} (h : s.Finished n k b)
include h

theorem ask_size : s.ask (.size (some k)) = .number (Frame.size ⟨b.locals, true⟩) := by
  simp only [ask, step, h.frameAt]

theorem ask_listLocals : s.ask (.listLocals (some k)) = .localEntries b.locals := by
  simp only [ask, step, h.frameAt]

/-- An unknown name has no place in the frame and no entry in the table. -/
theorem unknown_iff {name : Text} : s.ask (.resolve (some k) name) = .scope .unknown ↔
    b.find? name = none ∧ s.table.find? name = none := by
  rw [h.ask_resolve, Answer.scope.injEq, Builder.lookup]
  cases b.find? name <;> cases s.table.find? name <;> simp

theorem known_after {name : Text} (known : s.ask (.resolve (some k) name) ≠ .scope .unknown)
    (as : List Action) :
    (s.after as).ask (.resolve (some k) name) = s.ask (.resolve (some k) name) := by
  have hlookup : b.lookup s.table name ≠ .unknown := by
    intro hu
    rw [h.ask_resolve, hu] at known
    exact known rfl
  obtain ⟨b', hb', hsame⟩ := lookup_after h.builder hlookup as
  obtain rfl : { b with finished := true } = b' :=
    Option.some.inj ((h.after as).builder.symm.trans hb')
  rw [h.ask_resolve, (h.after as).ask_resolve]
  exact congrArg Answer.scope hsame

/-- Whatever happens next, the two answers about a name stay, or the name is revealed. -/
theorem name_after (as : List Action) (name : Text) :
    ((s.after as).ask (.resolve (some k) name) = s.ask (.resolve (some k) name) ∧
      (s.after as).ask (.label (some k) name) = s.ask (.label (some k) name)) ∨
    ∃ g, s.Revealed (s.after as) k name g := by
  by_cases known : s.ask (.resolve (some k) name) = .scope .unknown
  · obtain ⟨hl, hg⟩ := h.unknown_iff.mp known
    have ht := h.after as
    have hlabel : s.ask (.label (some k) name) = .halted (.misused (.noGlobal name)) := by
      rw [h.ask_label, hl, hg]
      rfl
    cases hg' : (s.after as).table.find? name with
    | none =>
      left
      refine ⟨(ht.unknown_iff.mpr ⟨hl, hg'⟩).trans known.symm, ?_⟩
      rw [hlabel, ht.ask_label, hl, hg']
      rfl
    | some g =>
      right
      refine ⟨g, known, hlabel, congrArg Answer.globalEntry hg', ?_, ?_⟩
      · rw [ht.ask_resolve, Builder.lookup_eq_globalVar hl hg']
      · rw [ht.ask_label, hl, hg']
        rfl
  · exact .inl ⟨h.known_after known as, h.ask_label_after known as⟩

end Finished

/-- A frame answers every question as it did when it was fixed, with one exception: a name that
was unknown to it then and is a global of the table now. This name it takes for that global. -/
theorem frame_answers_after (s : Session) {n k : Nat} {f : Frame}
    (hf : s.ask (.finish n) = .finished k f) (more : List Action) :
    let s₀ := s.after [.finish n]
    let t := s.after (.finish n :: more)
    (∀ a : Action, a.Asks k → (t.ask a ≠ s₀.ask a ↔
      ∃ name g, (a = .resolve (some k) name ∨ a = .label (some k) name) ∧
        s₀.ask (.resolve (some k) name) = .scope .unknown ∧
        t.ask (.findGlobal name) = .globalEntry (some g))) ∧
    ∀ name g, s₀.ask (.resolve (some k) name) = .scope .unknown →
      t.ask (.findGlobal name) = .globalEntry (some g) →
      t.ask (.resolve (some k) name) = .scope .globalVar ∧
        t.ask (.label (some k) name) = .text g.label := by
  intro s₀ t
  obtain ⟨b, hb⟩ := exists_builder_of_ask_finish hf
  have h₀ : s₀.Finished n k b := finished_of_ask hb hf
  have ht : t.Finished n k b := h₀.after more
  have revealed {name : Text} {g : Global} (hu : s₀.ask (.resolve (some k) name) = .scope .unknown)
      (hg : t.ask (.findGlobal name) = .globalEntry (some g)) : s₀.Revealed t k name g := by
    rcases h₀.name_after more name with ⟨hsame, _⟩ | ⟨g', hr⟩
    · have hnone := (ht.unknown_iff.mp (hsame.trans hu)).2
      cases hg.symm.trans (congrArg Answer.globalEntry hnone)
    · cases hg.symm.trans hr.declared
      exact hr
  refine ⟨?_, fun name g hu hg => ⟨(revealed hu hg).resolved, (revealed hu hg).label⟩⟩
  intro a ha
  constructor
  · intro hne
    have hname (name : Text)
        (hne : t.ask (.resolve (some k) name) ≠ s₀.ask (.resolve (some k) name) ∨
          t.ask (.label (some k) name) ≠ s₀.ask (.label (some k) name)) :
        ∃ g, s₀.Revealed t k name g := by
      rcases h₀.name_after more name with ⟨hr, hl⟩ | hr
      · exact (hne.elim (· hr) (· hl)).elim
      · exact hr
    cases a with
    | resolve frame name =>
      obtain rfl : frame = some k := ha
      obtain ⟨g, hr⟩ := hname name (.inl hne)
      exact ⟨name, g, .inl rfl, hr.unknown, hr.declared⟩
    | label frame name =>
      obtain rfl : frame = some k := ha
      obtain ⟨g, hr⟩ := hname name (.inr hne)
      exact ⟨name, g, .inr rfl, hr.unknown, hr.declared⟩
    | offset frame name =>
      obtain rfl : frame = some k := ha
      exact absurd ((ht.ask_offset name).trans (h₀.ask_offset name).symm) hne
    | size frame =>
      obtain rfl : frame = some k := ha
      exact absurd (ht.ask_size.trans h₀.ask_size.symm) hne
    | listLocals frame =>
      obtain rfl : frame = some k := ha
      exact absurd (ht.ask_listLocals.trans h₀.ask_listLocals.symm) hne
    | declareGlobal | findGlobal | listGlobals | newBuilder | builderGlobal | builderLocal
    | lookup | finish => exact ha.elim
  · rintro ⟨name, g, rfl | rfl, hu, hg⟩ hsame
    · cases (revealed hu hg).resolved.symm.trans (hsame.trans hu)
    · cases (revealed hu hg).label.symm.trans (hsame.trans (revealed hu hg).noLabel)

/-- The frame of a builder with the local `x` does not see the global `x` that is declared later,
but the global `y` it does see. -/
theorem frame_answers_after_global :
    let s := ({} : Session).after [.newBuilder, .builderLocal 0 "x" 1]
    let t := s.after [.finish 0, .declareGlobal "y" 2, .declareGlobal "x" 3]
    t.ask (.resolve (some 0) "x") = (s.after [.finish 0]).ask (.resolve (some 0) "x") ∧
    t.ask (.label (some 0) "y") ≠ (s.after [.finish 0]).ask (.label (some 0) "y") ∧
    t.ask (.label (some 0) "y") = .text "g_y" := by
  intro s t
  have hf : s.ask (.finish 0) = .finished 0 ⟨[⟨"x", -8, 1⟩], true⟩ := by decide
  have key := frame_answers_after s hf [.declareGlobal "y" 2, .declareGlobal "x" 3]
  have hy : t.ask (.findGlobal "y") = .globalEntry (some ⟨"y", "g_y", 2⟩) := by decide
  refine ⟨?_, (key.1 (.label (some 0) "y") rfl).mpr ⟨"y", _, .inr rfl, by decide, hy⟩,
    (key.2 "y" _ (by decide) hy).2⟩
  by_contra hne
  obtain ⟨name, g, ha | ha, hu, _⟩ := (key.1 (.resolve (some 0) "x") rfl).mp hne
  · cases ha
    exact absurd hu (by decide)
  · cases ha

/-- A frame is no snapshot of the globals: a name that is unknown to it becomes a global for it. -/
theorem not_frame_answers_fixed :
    ¬ ∀ (s : Session) (n k : Nat) (f : Frame) (more : List Action) (a : Action),
      s.ask (.finish n) = .finished k f → a.Asks k →
        (s.after (.finish n :: more)).ask a = (s.after [.finish n]).ask a := by
  intro h
  have hsame := h (({} : Session).after [.newBuilder]) 0 0 ⟨[], true⟩ [.declareGlobal "x" 1]
    (.resolve (some 0) "x") (by decide) rfl
  exact absurd hsame (by decide)

end Session
end IntLang
