import IntLang.Proofs.Tree.Parsing

/-! The parser stops as early as it can. Whatever it has taken without complaint is the start of
some program, and it refuses a token exactly where no program goes on with it. So the first item
that is a failure, that ends a program or that no program has at its place is the last one asked
for. -/
namespace IntLang

/-- Some program starts with these tokens. -/
def StartsProgram (ts : List Token) : Prop := ∃ rest x, SpellsProgram (ts ++ rest) x

/-- A factor may come next: there is a literal that some program has here. -/
def FactorMayFollow (ts : List Token) : Prop :=
  ∃ t : Token, t.kind = .intLiteral ∧ StartsProgram (ts ++ [t])

/-- What the calls for a token give, one after another. -/
abbrev TokenSource := Nat → Except Failure Token

namespace TokenSource

/-- The first items of the source, as many as this, are these tokens. -/
def First (source : TokenSource) (k : Nat) (ts : List Token) : Prop :=
  (List.range k).map source = ts.map .ok

/-- The item of this number ends a parse: it cannot be read, it is the end of file after a whole
list of statements, or no program starts with it and the items before it. -/
inductive StopsAt (source : TokenSource) (k : Nat) : Prop
  | failure {f : Failure} (item : source k = .error f)
  | complete {ts : List Token} {xs : List Node} {e : Token} (before : source.First k ts)
      (body : SpellsStatements ts xs) (item : source k = .ok e) (ending : e.kind = .endOfFile)
  | hopeless (h : ∀ ts, source.First (k + 1) ts → ¬ StartsProgram ts)

end TokenSource

/-- What the message about a token ends with, after the tokens before it. -/
inductive ComplaintEnds (ts : List Token) (t : Token) : Text → Prop
  | endOfFile (kind : t.kind = .endOfFile) : ComplaintEnds ts t "end of file"
  | outOfRange (kind : t.kind = .intLiteral) (range : Decimal.word? t.lexeme = none)
      (factor : FactorMayFollow ts) : ComplaintEnds ts t t.lexeme
  | quoted (kind : t.kind ≠ .endOfFile) (other : ¬ (t.kind = .intLiteral ∧
      Decimal.word? t.lexeme = none ∧ FactorMayFollow ts)) :
      ComplaintEnds ts t (Quoted.text t.lexeme)

/-- The result of a parse that ends with the item of this number. -/
inductive TokenSource.Result (source : TokenSource) (k : Nat) : Except ParseError Program → Prop
  | failure {f : Failure} (item : source k = .error f) : Result source k (.error (.read f))
  | program {ts : List Token} {e : Token} {x : Program} (before : source.First k ts)
      (item : source k = .ok e) (spelled : SpellsProgram (ts ++ [e]) x) : Result source k (.ok x)
  | refused {ts : List Token} {t : Token} {e : SyntaxError} {ending : Text}
      (before : source.First k ts) (item : source k = .ok t)
      (hopeless : ¬ StartsProgram (ts ++ [t])) (line : e.line = t.line)
      (ends : ComplaintEnds ts t ending) (message : ending <:+ e.message) :
      Result source k (.error (.refused e))

theorem StartsProgram.of_append {ts us : List Token} (h : StartsProgram (ts ++ us)) :
    StartsProgram ts := by
  obtain ⟨rest, x, hx⟩ := h
  exact ⟨us ++ rest, x, by rwa [← List.append_assoc]⟩

namespace TokenSource

variable {source : TokenSource} {k : Nat} {ts us : List Token}

theorem first_zero (source : TokenSource) : source.First 0 [] := rfl

theorem First.succ (h : source.First k ts) {t : Token} (ht : source k = .ok t) :
    source.First (k + 1) (ts ++ [t]) := by
  unfold First at h ⊢
  simp [List.range_succ, h, ht]

theorem First.unique (h : source.First k ts) (h' : source.First k us) : ts = us :=
  (List.map_inj_right fun _ _ => Except.ok.inj).mp (h.symm.trans h')

/-- A result tells why the parse ends with its item. -/
theorem Result.stopsAt {result : Except ParseError Program} (h : source.Result k result) :
    source.StopsAt k := by
  cases h with
  | failure item => exact .failure item
  | @program ts e x before item spelled =>
    generalize hl : ts ++ [e] = l at spelled
    obtain @⟨us, e', t, xs, body, ending, _⟩ := spelled
    obtain ⟨rfl, he⟩ := List.append_inj' hl rfl
    cases he
    exact .complete before body item ending
  | refused before item hopeless _ _ _ =>
    refine .hopeless fun us hus => ?_
    rwa [hus.unique (before.succ item)]

end TokenSource

namespace Parser

/-- Some tokens complete the statement under way. -/
def Finishes (s : State) : Prop :=
  ∃ us s' e x, Steps s us s' ∧ step s' e = .ok (.complete x)

theorem Finishes.of_step {s s' : State} {t : Token} (h : step s t = .ok (.state s'))
    (hs : Finishes s') : Finishes s := by
  obtain ⟨us, s'', e, x, hsteps, he⟩ := hs
  exact ⟨t :: us, s'', e, x, .cons h hsteps, he⟩

/-- After an operand, close all parentheses and the statement. -/
theorem finishes_operator (goal : Goal) (level : Level) (outer : List Level) (x : Node) :
    Finishes (.operator goal level outer x) := by
  induction outer generalizing level x with
  | nil =>
    let semicolon : Token := ⟨.char ';', [], 0⟩
    exact ⟨[], _, semicolon, _, .nil _, step_semicolon rfl⟩
  | cons around rest ih =>
    let closing : Token := ⟨.char ')', [], 0⟩
    exact .of_step (t := closing) (step_closing rfl) (ih _ _)

/-- Where an operand must come, any name will do. -/
theorem finishes_operand (goal : Goal) (level : Level) (outer : List Level) :
    Finishes (.operand goal level outer) := by
  let word : Token := ⟨.identifier, [], 0⟩
  exact .of_step (t := word) rfl (finishes_operator goal level outer _)

theorem finishes (s : State) (hs : s ≠ .statement) : Finishes s := by
  have named (keyword : Token) (name : Ident) : Finishes (.named keyword name) := by
    let semicolon : Token := ⟨.char ';', [], 0⟩
    exact ⟨[], _, semicolon, _, .nil _, rfl⟩
  have afterType (keyword : Token) : Finishes (.name keyword) := by
    let word : Token := ⟨.identifier, [], 0⟩
    exact .of_step (t := word) rfl (named keyword _)
  cases s with
  | statement => exact absurd rfl hs
  | typeWord keyword =>
    let type : Token := ⟨.keyword .intWord, [], 0⟩
    exact .of_step (t := type) rfl (afterType keyword)
  | name keyword => exact afterType keyword
  | named keyword name => exact named keyword name
  | target name =>
    let equals : Token := ⟨.char '=', [], 0⟩
    exact .of_step (t := equals) rfl (finishes_operand _ _ _)
  | returned keyword =>
    let semicolon : Token := ⟨.char ';', [], 0⟩
    exact ⟨[], _, semicolon, _, .nil _, rfl⟩
  | operand goal level outer => exact finishes_operand goal level outer
  | operator goal level outer x => exact finishes_operator goal level outer x

/-- The parser takes only tokens that some program has at their place. -/
theorem startsProgram_of_feedAll {ts : List Token} {p : Parser} (h : feedAll {} ts = .ok p) :
    StartsProgram ts := by
  have between {us : List Token} {q : Parser} (hq : feedAll {} us = .ok q)
      (hs : q.state = .statement) : StartsProgram us := by
    have hfinish : q.finish (.endOfFile 0) = .ok ⟨q.first.getD (.endOfFile 0), q.done.reverse⟩ := by
      rw [finish, hs]
    obtain ⟨body, first⟩ := finish_reads (feedAll_reads reads_nil hq) hfinish
    exact ⟨[.endOfFile 0], _, .intro body rfl first⟩
  by_cases hs : p.state = .statement
  · exact between h hs
  · obtain ⟨us, s, e, x, hsteps, he⟩ := finishes p.state hs
    have hall : feedAll {} (ts ++ (us ++ [e])) =
        .ok ⟨p.first.or (us ++ [e]).head?, x :: p.done, .statement⟩ := by
      rw [feedAll_append, h]
      exact feedAll_complete hsteps he
    exact (between hall rfl).of_append

/-- A token that some program has after those taken is taken as well, unless it is the end of that
program. -/
theorem feed_of_startsProgram {ts : List Token} {t : Token} {p : Parser}
    (hp : feedAll {} ts = .ok p) (h : StartsProgram (ts ++ [t])) :
    (∃ q, p.feed t = .ok q) ∨ p.state = .statement ∧ t.kind = .endOfFile := by
  obtain ⟨rest, x, hx⟩ := h
  generalize hl : ts ++ [t] ++ rest = l at hx
  obtain @⟨us, e, _, xs, body, ending, _⟩ := hx
  have hus : feedAll {} us = .ok ⟨us.head?, xs.reverse ++ [], .statement⟩ :=
    feedAll_spellsStatements body rfl
  rcases List.eq_nil_or_concat rest with rfl | ⟨rest, e', rfl⟩
  · rw [List.append_nil] at hl
    obtain ⟨rfl, he⟩ := List.append_inj' hl rfl
    cases he
    rw [hp] at hus
    cases hus
    exact .inr ⟨rfl, ending⟩
  · rw [List.concat_eq_append, ← List.append_assoc] at hl
    obtain ⟨rfl, _⟩ := List.append_inj' hl rfl
    rw [List.append_assoc, feedAll_append, hp] at hus
    have hfeed : p.feedAll (t :: rest) = p.feed t >>= fun q => q.feedAll rest := rfl
    change p.feedAll (t :: rest) = _ at hus
    rw [hfeed] at hus
    cases hq : p.feed t with
    | ok q => exact .inl ⟨q, rfl⟩
    | error e => simp [hq, bind, Except.bind] at hus

/-- An expression may start here. -/
def State.takesFactor : State → Bool
  | .returned _ => true
  | .operand _ _ _ => true
  | _ => false

/-- A literal is taken where a factor may start, if its value fits a word. -/
theorem step_intLiteral {s : State} {t : Token} (hs : s.takesFactor = true)
    (kind : t.kind = .intLiteral) : ∃ goal level outer, step s t =
      (Decimal.word? t.lexeme).elim (.error ⟨t.line, .outOfRange t.lexeme⟩) fun v =>
        .ok (.state (.operator goal level outer (.int t v))) := by
  have hoperand (goal : Goal) (level : Level) (outer : List Level) :
      onOperand goal level outer t =
        (Decimal.word? t.lexeme).elim (.error ⟨t.line, .outOfRange t.lexeme⟩) fun v =>
          .ok (.state (.operator goal level outer (.int t v))) := by
    rw [onOperand, if_pos kind]
    cases Decimal.word? t.lexeme <;> rfl
  cases s with
  | returned keyword =>
    have hsign : t.kind ≠ .char ';' := by
      rw [kind]
      decide
    exact ⟨.ret keyword, {}, [], by rw [step, if_neg hsign, hoperand]⟩
  | operand goal level outer => exact ⟨goal, level, outer, hoperand goal level outer⟩
  | _ => cases hs

/-- No place takes the end of file, and a literal is taken only where a factor may start. -/
theorem step_refused {s : State} {t : Token}
    (h : t.kind = .endOfFile ∨ t.kind = .intLiteral ∧ s.takesFactor = false) :
    ∃ e, step s t = .error e := by
  have onto {goal : Goal} {level : Level} {outer : List Level} (kind : t.kind = .endOfFile) :
      ∃ e, onOperand goal level outer t = .error e :=
    ⟨_, by simp [onOperand, refuse, kind, Kind.char]; rfl⟩
  cases s with
  | returned keyword =>
    rcases h with kind | ⟨_, hs⟩
    · simpa [step, kind, Kind.char] using onto kind
    · cases hs
  | operand goal level outer =>
    rcases h with kind | ⟨_, hs⟩
    · exact onto kind
    · cases hs
  | statement =>
    rcases h with kind | ⟨kind, _⟩ <;> exact ⟨_, by simp [step, onStatement, refuse, kind]; rfl⟩
  | operator goal level outer x =>
    rcases h with kind | ⟨kind, _⟩ <;> cases outer <;>
      exact ⟨_, by simp [step, onOperator, refuse, kind, Kind.char]; rfl⟩
  | _ =>
    rcases h with kind | ⟨kind, _⟩ <;> exact ⟨_, by simp [step, refuse, kind, Kind.char]; rfl⟩

theorem onOperand_eq_error {goal : Goal} {level : Level} {outer : List Level} {t : Token}
    {e : SyntaxError} (h : onOperand goal level outer t = .error e) :
    (e = ⟨t.line, .outOfRange t.lexeme⟩ ∧ t.kind = .intLiteral ∧
      Decimal.word? t.lexeme = none) ∨
    e = ⟨t.line, .unexpected .expression t⟩ ∧ t.kind ≠ .intLiteral := by
  unfold onOperand at h
  split at h
  · rename_i kind
    split at h
    · cases h
    · rename_i range
      cases h
      exact .inl ⟨rfl, kind, range⟩
  · rename_i kind
    split at h
    · cases h
    · split at h
      · cases h
      · cases h
        exact .inr ⟨rfl, kind⟩

/-- The two ways to refuse a token: it is a literal too large for a factor, or it is not what the
place asks for. -/
theorem step_eq_error {s : State} {t : Token} {e : SyntaxError} (h : step s t = .error e) :
    (e = ⟨t.line, .outOfRange t.lexeme⟩ ∧ t.kind = .intLiteral ∧
      Decimal.word? t.lexeme = none ∧ s.takesFactor = true) ∨
    e = ⟨t.line, .unexpected s.expected t⟩ ∧ ¬ (t.kind = .intLiteral ∧ s.takesFactor = true) := by
  have asked {s : State} (hs : s.takesFactor = false) (he : refuse s t = .error e) :
      e = ⟨t.line, .unexpected s.expected t⟩ ∧
        ¬ (t.kind = .intLiteral ∧ s.takesFactor = true) := by
    cases he
    exact ⟨rfl, by simp [hs]⟩
  cases s with
  | statement =>
    simp only [step, onStatement] at h
    split at h <;> first | cases h; done | exact .inr (asked rfl h)
  | typeWord keyword =>
    simp only [step] at h
    split at h
    · cases h
    · exact .inr (asked rfl h)
  | name keyword =>
    simp only [step] at h
    split at h
    · cases h
    · exact .inr (asked rfl h)
  | named keyword name =>
    simp only [step] at h
    split at h
    · cases h
    · split at h
      · cases h
      · exact .inr (asked rfl h)
  | target name =>
    simp only [step] at h
    split at h
    · cases h
    · exact .inr (asked rfl h)
  | returned keyword =>
    simp only [step] at h
    split at h
    · cases h
    · rcases onOperand_eq_error h with ⟨he, kind, range⟩ | ⟨he, kind⟩
      · exact .inl ⟨he, kind, range, rfl⟩
      · exact .inr ⟨he, fun hk => kind hk.1⟩
  | operand goal level outer =>
    rcases onOperand_eq_error h with ⟨he, kind, range⟩ | ⟨he, kind⟩
    · exact .inl ⟨he, kind, range, rfl⟩
    · exact .inr ⟨he, fun hk => kind hk.1⟩
  | operator goal level outer x =>
    simp only [step, onOperator] at h
    split at h
    · cases h
    · split at h
      · cases h
      · split at h <;> split at h
        · cases h
        · exact .inr (asked rfl h)
        · cases h
        · exact .inr (asked rfl h)

theorem feed_eq_error {p : Parser} {t : Token} {e : SyntaxError} :
    p.feed t = .error e ↔ step p.state t = .error e := by
  unfold feed
  split <;> simp_all

theorem feedAll_concat {ts : List Token} {t : Token} {p q : Parser} (hp : feedAll {} ts = .ok p)
    (hq : p.feed t = .ok q) : feedAll {} (ts ++ [t]) = .ok q := by
  rw [feedAll_append, hp]
  change (p.feed t >>= fun q => q.feedAll []) = _
  rw [hq]
  rfl

/-- What comes before a token of a program is taken. -/
theorem exists_feedAll {ts : List Token} {t : Token} (h : StartsProgram (ts ++ [t])) :
    ∃ p, feedAll {} ts = .ok p := by
  obtain ⟨rest, x, hx⟩ := h
  generalize hl : ts ++ [t] ++ rest = l at hx
  obtain @⟨us, e, _, xs, body, _, _⟩ := hx
  have hlength : ts.length ≤ us.length := by
    have := congrArg List.length hl
    simp only [List.length_append, List.length_singleton] at this
    omega
  have hts : ts <+: us ++ [e] := by
    rw [← hl, List.append_assoc]
    exact List.prefix_append ts _
  obtain ⟨vs, rfl⟩ := List.prefix_of_prefix_length_le hts (List.prefix_append us [e]) hlength
  have hfeed : feedAll {} (ts ++ vs) = .ok ⟨(ts ++ vs).head?, xs.reverse ++ [], .statement⟩ :=
    feedAll_spellsStatements body rfl
  rw [feedAll_append] at hfeed
  cases hp : feedAll {} ts with
  | ok p => exact ⟨p, rfl⟩
  | error e => simp [hp, bind, Except.bind] at hfeed

theorem kind_ne_endOfFile_of_feedAll {p q : Parser} {ts : List Token} (h : p.feedAll ts = .ok q) :
    ∀ t ∈ ts, t.kind ≠ .endOfFile := by
  induction ts generalizing p with
  | nil => simp
  | cons t ts ih =>
    have hfeed : p.feedAll (t :: ts) = p.feed t >>= fun r => r.feedAll ts := rfl
    rw [hfeed] at h
    cases ht : p.feed t with
    | error e => simp [ht, bind, Except.bind] at h
    | ok r =>
      rw [ht] at h
      rw [List.forall_mem_cons]
      refine ⟨?_, ih h⟩
      intro kind
      obtain ⟨e, he⟩ := step_refused (s := p.state) (.inl kind)
      rw [feed_eq_error.mpr he] at ht
      cases ht

/-- A parse comes to where the tokens lead that it is fed first. -/
theorem parse_append {ts : List Token} {p : Parser} (hp : feedAll {} ts = .ok p)
    (us : List Token) (stop : TokenStop) :
    TokenStream.parse ⟨ts ++ us, stop⟩ = p.run ts.length stop us := by
  have := run_append (kind_ne_endOfFile_of_feedAll hp) hp 0 stop us
  rwa [Nat.zero_add] at this

section

variable {ts : List Token} {t : Token} {p : Parser} (hp : feedAll {} ts = .ok p)

include hp

theorem factorMayFollow_iff : FactorMayFollow ts ↔ p.state.takesFactor = true := by
  constructor
  · rintro ⟨t, kind, ht⟩
    rcases feed_of_startsProgram hp ht with ⟨q, hq⟩ | ⟨_, hk⟩
    · cases hs : p.state.takesFactor with
      | true => rfl
      | false =>
        obtain ⟨e, he⟩ := step_refused (.inr ⟨kind, hs⟩)
        rw [feed_eq_error.mpr he] at hq
        cases hq
    · rw [kind] at hk
      cases hk
  · intro hs
    let zero : Token := ⟨.intLiteral, "0", 0⟩
    have fits : Decimal.word? zero.lexeme = some 0 := rfl
    obtain ⟨goal, level, outer, hstep⟩ := step_intLiteral (t := zero) hs rfl
    rw [fits, Option.elim_some] at hstep
    have hfeed : p.feed zero = .ok { p with
        first := p.first.or (some zero), state := .operator goal level outer (.int zero 0) } := by
      rw [feed, hstep]
    exact ⟨zero, rfl, startsProgram_of_feedAll (feedAll_concat hp hfeed)⟩

/-- A token that is refused has no program, and the message about it ends as it should. -/
theorem feed_refused (ht : t.kind ≠ .endOfFile) {e : SyntaxError} (h : p.feed t = .error e) :
    ¬ StartsProgram (ts ++ [t]) ∧ e.line = t.line ∧
      ∃ ending, ComplaintEnds ts t ending ∧ ending <:+ e.message := by
  refine ⟨?_, ?_⟩
  · intro hts
    rcases feed_of_startsProgram hp hts with ⟨q, hq⟩ | ⟨_, hk⟩
    · rw [h] at hq
      cases hq
    · exact ht hk
  · rcases step_eq_error (feed_eq_error.mp h) with ⟨rfl, kind, range, hs⟩ | ⟨rfl, hs⟩
    · exact ⟨rfl, _, .outOfRange kind range ((factorMayFollow_iff hp).mpr hs),
        List.suffix_append _ _⟩
    · refine ⟨rfl, _, .quoted ht fun hk => hs ⟨hk.1, (factorMayFollow_iff hp).mp hk.2.2⟩, ?_⟩
      have hgot : t.got = Quoted.text t.lexeme := if_neg ht
      rw [← hgot]
      exact List.suffix_append _ _

/-- At the end of file there is a program, or else none goes on like that. -/
theorem finish_cases (ht : t.kind = .endOfFile) :
    (∃ x, p.finish t = .ok x ∧ SpellsProgram (ts ++ [t]) x) ∨
      ∃ e, p.finish t = .error (.refused e) ∧ ¬ StartsProgram (ts ++ [t]) ∧ e.line = t.line ∧
        "end of file" <:+ e.message := by
  by_cases hs : p.state = .statement
  · have hfinish : p.finish t = .ok ⟨p.first.getD t, p.done.reverse⟩ := by rw [finish, hs]
    obtain ⟨body, first⟩ := finish_reads (feedAll_reads reads_nil hp) hfinish
    exact .inl ⟨_, hfinish, .intro body ht first⟩
  · refine .inr ⟨⟨t.line, .unexpected p.state.expected t⟩, ?_, ?_, rfl, ?_⟩
    · unfold finish
      split
      · exact absurd (by assumption) hs
      · rfl
    · intro hts
      rcases feed_of_startsProgram hp hts with ⟨q, hq⟩ | ⟨hk, _⟩
      · obtain ⟨e, he⟩ := step_refused (s := p.state) (.inl ht)
        rw [feed_eq_error.mpr he] at hq
        cases hq
      · exact hs hk
    · have hgot : t.got = "end of file" := if_pos ht
      rw [← hgot]
      exact List.suffix_append _ _

end
end Parser

theorem SpellsProgram.parse {ts : List Token} {x : Program} (h : SpellsProgram ts x)
    (stop : TokenStop) : (TokenStream.parse ⟨ts, stop⟩).result = .ok x := by
  obtain @⟨us, e, t, xs, body, ending, first⟩ := h
  have hfeed : Parser.feedAll {} us = .ok ⟨us.head?, xs.reverse ++ [], .statement⟩ :=
    Parser.feedAll_spellsStatements body rfl
  rw [Parser.parse_append hfeed]
  cases us <;> simp_all [Parser.run, Parser.finish]

namespace TokenStream

/-- The line of the last token among some results, or else the line given. -/
def lastLine (results : List (Except Failure Token)) (line : Int) : Int :=
  results.foldl (fun line r =>
    match r with
    | .ok t => t.line
    | .error _ => line) line

/-- The results one after another, and then end-of-file tokens for ever. -/
def source (results : List (Except Failure Token)) (line : Int) : TokenSource := fun i =>
  results[i]?.getD (.ok (.endOfFile (lastLine results line)))

variable {src : TokenSource} {ts : List Token} {p : Parser}

theorem result_of_finish (hp : Parser.feedAll {} ts = .ok p) (hts : src.First ts.length ts)
    {t : Token} (item : src ts.length = .ok t) (ht : t.kind = .endOfFile) :
    src.Result ts.length (p.finish t) := by
  rcases Parser.finish_cases hp ht with ⟨x, hx, spelled⟩ | ⟨e, he, hopeless, line, message⟩
  · rw [hx]
    exact .program hts item spelled
  · rw [he]
    exact .refused hts item hopeless line (.endOfFile ht) message

/-- From any point on, a parse goes on to the next item that can end it. -/
theorem run_stops (hp : Parser.feedAll {} ts = .ok p) (hts : src.First ts.length ts)
    (results : List (Except Failure Token)) (line : Int)
    (hsrc : ∀ i, src (ts.length + i) = source results line i) :
    ∃ k, (∀ j, ts.length ≤ j → j < k → ¬ src.StopsAt j) ∧
      (p.run ts.length (ofResults results line).stop (ofResults results line).tokens).taken =
        k + 1 ∧
      src.Result k
        (p.run ts.length (ofResults results line).stop (ofResults results line).tokens).result := by
  induction results generalizing ts p line with
  | nil =>
    have item : src ts.length = .ok (.endOfFile line) := hsrc 0
    exact ⟨ts.length, by omega, rfl, result_of_finish hp hts item rfl⟩
  | cons r results ih =>
    cases r with
    | error f =>
      have item : src ts.length = .error f := hsrc 0
      exact ⟨ts.length, by omega, rfl, .failure item⟩
    | ok t =>
      have item : src ts.length = .ok t := hsrc 0
      rw [ofResults, Parser.run]
      by_cases ht : t.kind = .endOfFile
      · rw [if_pos ht]
        exact ⟨ts.length, by omega, rfl, result_of_finish hp hts item ht⟩
      rw [if_neg ht]
      cases hq : p.feed t with
      | error e =>
        obtain ⟨hopeless, hline, ending, ends, message⟩ := Parser.feed_refused hp ht hq
        exact ⟨ts.length, by omega, rfl, .refused hts item hopeless hline ends message⟩
      | ok q =>
        have hlen : (ts ++ [t]).length = ts.length + 1 := by simp
        have hall := Parser.feedAll_concat hp hq
        have hnext : src.First (ts ++ [t]).length (ts ++ [t]) := by
          rw [hlen]
          exact hts.succ item
        obtain ⟨k, least, taken, result⟩ := ih hall hnext t.line fun i => by
          rw [hlen, Nat.add_assoc, Nat.add_comm 1, hsrc (i + 1)]
          rfl
        rw [hlen] at least taken result
        refine ⟨k, ?_, taken, result⟩
        intro j hj hjk
        rcases Nat.eq_or_lt_of_le hj with rfl | hlt
        · intro hstop
          cases hstop with
          | failure h =>
            rw [item] at h
            cases h
          | complete _ _ h ending =>
            rw [item] at h
            cases h
            exact ht ending
          | hopeless h => exact h _ (hts.succ item) (Parser.startsProgram_of_feedAll hall)
        · exact least j hlt hjk

/-- A parse of any tokens and failures, with the end of file after them, ends with the first item
that is a failure, that ends a program or that no program has at its place. It asks for no item
after that one, and gives the failure, the tree of the program, or an error about that token. -/
theorem parse_ofResults (results : List (Except Failure Token)) (line : Int) :
    ∃ k, (source results line).StopsAt k ∧ (∀ j < k, ¬ (source results line).StopsAt j) ∧
      (ofResults results line).parse.taken = k + 1 ∧
      (source results line).Result k (ofResults results line).parse.result := by
  have hstart : Parser.feedAll {} [] = .ok {} := rfl
  have hsrc (i : Nat) : source results line (([] : List Token).length + i) =
      source results line i := by simp
  obtain ⟨k, least, taken, result⟩ :=
    run_stops hstart (TokenSource.first_zero _) results line hsrc
  exact ⟨k, result.stopsAt, fun j hj => least j (Nat.zero_le j) hj, taken, result⟩

end TokenStream
end IntLang
