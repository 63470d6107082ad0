import IntLang.Proofs.Scope.Runs

/-! What a name stands for is settled once. A builder never takes a name that is global by then, so
a name that it knows stands for the same variable ever after. The frame of a builder keeps the
builder's locals and looks at the same table, so the two resolve every name alike. -/
namespace IntLang

theorem Builder.lookup_eq_localVar {b : Builder} {t : Table} {name : Text} {l : Local}
    (h : b.find? name = some l) : b.lookup t name = .localVar := by
  simp [lookup, h]

theorem Builder.lookup_eq_globalVar {b : Builder} {t : Table} {name : Text} {g : Global}
    (h : b.find? name = none) (hg : t.find? name = some g) : b.lookup t name = .globalVar := by
  simp [lookup, h, hg]

theorem Builder.lookup_eq_unknown {b : Builder} {t : Table} {name : Text}
    (h : b.find? name = none) (hg : t.find? name = none) : b.lookup t name = .unknown := by
  simp [lookup, h, hg]

/-- The frame of a builder gives every name the meaning that the builder gives it. -/
theorem Frame.resolve_of_builder (b : Builder) (t : Table) (name : Text) :
    (⟨b.locals, true⟩ : Frame).resolve t name = .ok (b.lookup t name) := by
  have hfind : (⟨b.locals, true⟩ : Frame).find? name = b.find? name := rfl
  unfold resolve Builder.lookup
  rw [hfind]
  cases b.find? name with
  | some l => rfl
  | none => cases t.find? name <;> rfl

theorem Frame.localOffset_of_builder (b : Builder) (name : Text) :
    (⟨b.locals, true⟩ : Frame).localOffset name =
      (b.find? name).elim (.error (.noLocal name)) (.ok ·.offset) := by
  have hfind : (⟨b.locals, true⟩ : Frame).find? name = b.find? name := rfl
  unfold localOffset
  rw [hfind]
  cases b.find? name <;> rfl

theorem Frame.globalLabel_of_builder (b : Builder) (t : Table) (name : Text) :
    (⟨b.locals, true⟩ : Frame).globalLabel t name =
      if (b.find? name).isSome then .error (.notGlobal name)
      else (t.find? name).elim (.error (.noGlobal name)) (.ok ·.label) := by
  have hfind : (⟨b.locals, true⟩ : Frame).find? name = b.find? name := rfl
  unfold globalLabel
  rw [hfind]
  cases b.find? name with
  | some l => rfl
  | none => cases t.find? name <;> rfl

namespace Session

/-- The name of a global is not given to a local any more. -/
theorem Change.find?_of_global {s s' : Session} {a : Action} {answer : Answer}
    (c : s.Change a (s', answer)) {n : Nat} {b : Builder} (hb : s.builders[n]? = some b)
    {name : Text} {g : Global} (hg : s.table.find? name = some g) :
    ∃ b', s'.builders[n]? = some b' ∧ b'.find? name = b.find? name := by
  cases c with
  | nothing => exact ⟨b, hb, rfl⟩
  | global => exact ⟨b, hb, rfl⟩
  | builder =>
    have hn : n < s.builders.length := (List.getElem?_eq_some_iff.mp hb).1
    exact ⟨b, by rw [List.getElem?_append_left hn, hb], rfl⟩
  | @localVar m d d' other line hd h =>
    obtain ⟨_, _, hother, rfl⟩ := Builder.declareLocal_eq_ok.mp h
    -- a local is refused if its name is global by now
    have hne : ¬ other = name := by
      rintro rfl
      rw [hg] at hother
      cases hother
    refine exists_builder_of_set (R := fun c c' => c'.find? name = c.find? name) (fun _ => rfl) hd
      ?_ n b hb
    simp [Builder.find?, Builder.entry, hne]
  | frame hd h =>
    obtain ⟨_, _, rfl⟩ := Builder.finish_eq_ok.mp h
    refine exists_builder_of_set (R := fun c c' => c'.find? name = c.find? name) (fun _ => rfl) hd
      ?_ n b hb
    rfl

/-- A name that a builder knows keeps its meaning there. -/
theorem Change.lookup {s s' : Session} {a : Action} {answer : Answer}
    (c : s.Change a (s', answer)) {n : Nat} {b : Builder} (hb : s.builders[n]? = some b)
    {name : Text} (known : b.lookup s.table name ≠ .unknown) :
    ∃ b', s'.builders[n]? = some b' ∧ b'.lookup s'.table name = b.lookup s.table name := by
  cases hl : b.find? name with
  | some l =>
    obtain ⟨b', hb', hlocals, _⟩ := c.grows.builders n b hb
    have hl' : b'.find? name = some l := hlocals.find?_eq_some hl
    exact ⟨b', hb', by rw [Builder.lookup_eq_localVar hl', Builder.lookup_eq_localVar hl]⟩
  | none =>
    cases hg : s.table.find? name with
    | none => exact absurd (Builder.lookup_eq_unknown hl hg) known
    | some g =>
      -- only a local of this name could hide the global
      obtain ⟨b', hb', hl'⟩ := c.find?_of_global hb hg
      have hg' : s'.table.find? name = some g := c.grows.globals.find?_eq_some hg
      refine ⟨b', hb', ?_⟩
      rw [Builder.lookup_eq_globalVar (hl'.trans hl) hg', Builder.lookup_eq_globalVar hl hg]

theorem lookup_after {s : Session} {n : Nat} {b : Builder} (hb : s.builders[n]? = some b)
    {name : Text} (known : b.lookup s.table name ≠ .unknown) (as : List Action) :
    ∃ b', (s.after as).builders[n]? = some b' ∧
      b'.lookup (s.after as).table name = b.lookup s.table name := by
  induction as generalizing s b with
  | nil => exact ⟨b, hb, rfl⟩
  | cons a as ih =>
    obtain ⟨b₁, hb₁, h₁⟩ := (s.step_change a).lookup hb known
    obtain ⟨b₂, hb₂, h₂⟩ := ih hb₁ (h₁ ▸ known)
    exact ⟨b₂, hb₂, h₂.trans h₁⟩

theorem ask_lookup {s : Session} {n : Nat} {b : Builder} (hb : s.builders[n]? = some b)
    (name : Text) : s.ask (.lookup n name) = .scope (b.lookup s.table name) := by
  simp [ask, step, withBuilder, hb]

theorem exists_builder_of_ask_lookup {s : Session} {n : Nat} {name : Text} {scope : Scope}
    (h : s.ask (.lookup n name) = .scope scope) :
    ∃ b, s.builders[n]? = some b ∧ b.lookup s.table name = scope := by
  cases hb : s.builders[n]? with
  | none => simp [ask, step, withBuilder, hb] at h
  | some b =>
    rw [ask_lookup hb] at h
    exact ⟨b, rfl, Answer.scope.inj h⟩

/-- The builder of a number is finished, and the frame of a number has its locals. -/
structure Finished (s : Session) (n k : Nat) (b : Builder) : Prop where
  builder : s.builders[n]? = some { b with finished := true }
  frame : s.frames[k]? = some ⟨b.locals, true⟩

theorem finished_of_ask {s : Session} {n k : Nat} {b : Builder} {f : Frame}
    (hb : s.builders[n]? = some b) (h : s.ask (.finish n) = .finished k f) :
    (s.step (.finish n)).1.Finished n k b := by
  have hn : n < s.builders.length := (List.getElem?_eq_some_iff.mp hb).1
  cases hf : b.finish with
  | error e => simp [ask, step, withBuilder, hb, hf] at h
  | ok p =>
    obtain ⟨f', b'⟩ := p
    obtain ⟨_, rfl, rfl⟩ := Builder.finish_eq_ok.mp hf
    simp only [ask, step, withBuilder, hb, hf, Answer.finished.injEq] at h
    obtain ⟨rfl, _⟩ := h
    simp only [step, withBuilder, hb, hf]
    exact ⟨List.getElem?_set_self hn, List.getElem?_concat_length⟩

namespace Finished

variable {s : Session} {n k : Nat} {b : Builder} (h : s.Finished n k b)
include h

theorem after (as : List Action) : (s.after as).Finished n k b := by
  have grows := s.grows_after as
  obtain ⟨b', hb, _, hf⟩ := grows.builders n _ h.builder
  obtain rfl := hf rfl
  obtain ⟨more, hframes⟩ := grows.frames
  refine ⟨hb, ?_⟩
  rw [← hframes, List.getElem?_append_left (List.getElem?_eq_some_iff.mp h.frame).1, h.frame]

theorem frameAt : s.frameAt (some k) = ⟨b.locals, true⟩ := by
  simp [Session.frameAt, List.getD_eq_getElem?_getD, h.frame]

theorem ask_lookup (name : Text) : s.ask (.lookup n name) = .scope (b.lookup s.table name) :=
  Session.ask_lookup h.builder name

theorem ask_resolve (name : Text) :
    s.ask (.resolve (some k) name) = .scope (b.lookup s.table name) := by
  simp only [ask, step, h.frameAt, Frame.resolve_of_builder, answer]

theorem ask_offset (name : Text) : s.ask (.offset (some k) name) =
    (b.find? name).elim (.halted (.misused (.noLocal name))) (.number ·.offset) := by
  simp only [ask, step, h.frameAt, Frame.localOffset_of_builder]
  cases b.find? name <;> rfl

theorem ask_label (name : Text) : s.ask (.label (some k) name) =
    if (b.find? name).isSome then .halted (.misused (.notGlobal name))
    else (s.table.find? name).elim (.halted (.misused (.noGlobal name))) (.text ·.label) := by
  simp only [ask, step, h.frameAt, Frame.globalLabel_of_builder]
  cases b.find? name with
  | some l => rfl
  | none => cases s.table.find? name <;> rfl

/-- The offset is there for the locals, and the label for the globals. -/
theorem answers (name : Text) :
    ((∃ o, s.ask (.offset (some k) name) = .number o) ↔
      s.ask (.resolve (some k) name) = .scope .localVar) ∧
    (∀ o, s.ask (.offset (some k) name) = .number o → ∃ l, b.find? name = some l ∧ l.offset = o) ∧
    ((∃ label, s.ask (.label (some k) name) = .text label) ↔
      s.ask (.resolve (some k) name) = .scope .globalVar) ∧
    ∀ label, s.ask (.label (some k) name) = .text label →
      ∃ g, s.ask (.findGlobal name) = .globalEntry (some g) ∧ g.label = label := by
  have found : s.ask (.findGlobal name) = .globalEntry (s.table.find? name) := rfl
  rw [h.ask_offset, h.ask_label, h.ask_resolve, found]
  cases hl : b.find? name with
  | some l => simp [Builder.lookup_eq_localVar hl]
  | none =>
    cases hg : s.table.find? name with
    | some g => simp [Builder.lookup_eq_globalVar hl hg]
    | none => simp [Builder.lookup_eq_unknown hl hg]

/-- A label that is known does not change. -/
theorem ask_label_after {name : Text} (known : s.ask (.resolve (some k) name) ≠ .scope .unknown)
    (as : List Action) :
    (s.after as).ask (.label (some k) name) = s.ask (.label (some k) name) := by
  rw [h.ask_label, (h.after as).ask_label]
  cases hl : b.find? name with
  | some l => rfl
  | none =>
    cases hg : s.table.find? name with
    | some g =>
      have hg' : (s.after as).table.find? name = some g :=
        (s.grows_after as).globals.find?_eq_some hg
      rw [hg']
    | none =>
      rw [h.ask_resolve, Builder.lookup_eq_unknown hl hg] at known
      exact absurd rfl known

end Finished

/-- What a builder takes a name for, once it knows it, it takes it for ever after. When the builder
is finished its frame takes every name for the same, whatever is declared later. The frame has
an offset for the locals, that of the builder, and a label for the globals, that of the table,
and these do not change. -/
theorem bindings_after (s : Session) :
    (∀ n name scope, s.ask (.lookup n name) = .scope scope → scope ≠ .unknown →
      ∀ more, (s.after more).ask (.lookup n name) = .scope scope) ∧
    ∀ n b k f, s.builders[n]? = some b → s.ask (.finish n) = .finished k f → ∀ more name,
      let t := s.after (.finish n :: more)
      (∃ scope, t.ask (.lookup n name) = .scope scope ∧
        t.ask (.resolve (some k) name) = .scope scope) ∧
      ((∃ o, t.ask (.offset (some k) name) = .number o) ↔
        t.ask (.resolve (some k) name) = .scope .localVar) ∧
      (∀ o, t.ask (.offset (some k) name) = .number o →
        ∃ l, b.find? name = some l ∧ l.offset = o) ∧
      ((∃ label, t.ask (.label (some k) name) = .text label) ↔
        t.ask (.resolve (some k) name) = .scope .globalVar) ∧
      (∀ label, t.ask (.label (some k) name) = .text label →
        ∃ g, t.ask (.findGlobal name) = .globalEntry (some g) ∧ g.label = label) ∧
      ∀ later,
        (t.after later).ask (.offset (some k) name) = t.ask (.offset (some k) name) ∧
        (t.ask (.resolve (some k) name) ≠ .scope .unknown →
          (t.after later).ask (.label (some k) name) = t.ask (.label (some k) name)) := by
  constructor
  · intro n name scope h known more
    obtain ⟨b, hb, rfl⟩ := exists_builder_of_ask_lookup h
    obtain ⟨b', hb', hlookup⟩ := lookup_after hb known more
    rw [Session.ask_lookup hb', hlookup]
  · intro n b k f hb hf more name t
    have ht : t.Finished n k b := (finished_of_ask hb hf).after more
    obtain ⟨offset, assigned, label, kept⟩ := ht.answers name
    refine ⟨⟨_, ht.ask_lookup name, ht.ask_resolve name⟩, offset, assigned, label, kept, ?_⟩
    intro later
    refine ⟨?_, fun known => ht.ask_label_after known later⟩
    rw [ht.ask_offset, (ht.after later).ask_offset]

/-- The frame of a builder that is finished keeps `x` for a local while `x` becomes a global. -/
theorem bindings_after_shadowed :
    let s := ({} : Session).after
      [.newBuilder, .builderLocal 0 "x" 1, .newBuilder, .builderGlobal 1 "y" 2]
    let t := s.after [.finish 0, .builderGlobal 1 "x" 3]
    t.ask (.findGlobal "x") = .globalEntry (some ⟨"x", "g_x", 3⟩) ∧
    t.ask (.resolve (some 0) "x") = .scope .localVar ∧
    (∃ o, t.ask (.offset (some 0) "x") = .number o) ∧
    ∃ label, t.ask (.label (some 0) "y") = .text label := by
  intro s t
  have key := (bindings_after s).2 0 ⟨[⟨"x", -8, 1⟩], false⟩ 0 ⟨[⟨"x", -8, 1⟩], true⟩
    (by decide) (by decide) [.builderGlobal 1 "x" 3]
  exact ⟨by decide, by decide, (key "x").2.1.mpr (by decide), (key "y").2.2.2.1.mpr (by decide)⟩

end Session
end IntLang
