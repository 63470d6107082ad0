import IntLang.Proofs.Tree.Grammar

/-! The parser accepts exactly what the grammar spells. Completeness follows the spelling of an
expression through the states of the parser. Soundness reads the tokens of the statement under
way back from the state. -/
namespace IntLang
namespace Parser

/-- The tokens lead from one place of a statement to another. -/
inductive Steps : State → List Token → State → Prop
  | nil (s : State) : Steps s [] s
  | cons {s s' s'' : State} {t : Token} {ts : List Token} (first : step s t = .ok (.state s'))
      (rest : Steps s' ts s'') : Steps s (t :: ts) s''

theorem Steps.append {s s' s'' : State} {ts us : List Token} (h : Steps s ts s')
    (h' : Steps s' us s'') : Steps s (ts ++ us) s'' := by
  induction h with
  | nil => exact h'
  | cons first _ ih => exact .cons first (ih h')

theorem Steps.one {s s' : State} {t : Token} (h : step s t = .ok (.state s')) : Steps s [t] s' :=
  .cons h (.nil s')

section Completeness

variable {goal : Goal} {outer : List Level}

/-- How far the tokens of an expression lead, for each rank. A factor is ready at once; a term
may leave a product open and a sum a sum as well, which the next token closes. -/
def Leads (goal : Goal) : Rank → List Token → Node → Prop
  | .factor, ts, x => ∀ level outer,
    Steps (.operand goal level outer) ts (.operator goal level outer x)
  | .term, ts, x => ∀ sum outer, ∃ product y, Waiting.join product y = x ∧
    Steps (.operand goal ⟨sum, none⟩ outer) ts (.operator goal ⟨sum, product⟩ outer y)
  | .sum, ts, x => ∀ outer, ∃ (level : Level) (y : Node), level.total y = x ∧
    Steps (.operand goal {} outer) ts (.operator goal level outer y)

theorem step_productSign {level : Level} {x : Node} {op : Token} (h : op.kind.IsProductSign) :
    step (.operator goal level outer x) op =
      .ok (.state (.operand goal { level with product := some (level.term x, op) } outer)) := by
  unfold Kind.IsProductSign at h
  simp only [step, onOperator]
  rw [if_pos h]

theorem step_sumSign {level : Level} {x : Node} {op : Token} (h : op.kind.IsSumSign) :
    step (.operator goal level outer x) op =
      .ok (.state (.operand goal { sum := some (level.total x, op) } outer)) := by
  unfold Kind.IsSumSign at h
  have hp : ¬ (op.kind = .char '*' ∨ op.kind = .char '/') := by
    rcases h with h | h <;> rw [h] <;> decide
  simp only [step, onOperator]
  rw [if_neg hp, if_pos h]

theorem step_closing {level around : Level} {x : Node} {c : Token} (h : c.kind = .char ')') :
    step (.operator goal level (around :: outer) x) c =
      .ok (.state (.operator goal around outer (level.total x))) := by
  simp [step, onOperator, h, Kind.char]

theorem step_semicolon {level : Level} {x : Node} {e : Token} (h : e.kind = .char ';') :
    step (.operator goal level [] x) e = .ok (.complete (goal.finish (level.total x))) := by
  simp [step, onOperator, h, Kind.char]

/-- The tokens of an expression lead through the parser to its tree. -/
theorem leads_of_spells (goal : Goal) {rank : Rank} {ts : List Token} {x : Node}
    (h : Spells rank ts x) : Leads goal rank ts x := by
  induction h with
  | int kind fits =>
    intro level outer
    apply Steps.one
    simp [step, onOperand, kind, fits]
  | ident kind =>
    intro level outer
    apply Steps.one
    simp [step, onOperand, kind]
  | @parens o c ts x opening _ closing ih =>
    intro level outer
    obtain ⟨inner, y, rfl, hs⟩ := ih (level :: outer)
    have ho : step (.operand goal level outer) o =
        .ok (.state (.operand goal {} (level :: outer))) := by
      simp [step, onOperand, opening, Kind.char]
    exact .cons ho (hs.append (.one (step_closing closing)))
  | ofFactor _ ih =>
    intro sum outer
    exact ⟨none, _, rfl, ih ⟨sum, none⟩ outer⟩
  | @product ts us op x y _ sign _ ihl ihr =>
    intro sum outer
    obtain ⟨product, z, rfl, hs⟩ := ihl sum outer
    refine ⟨some (Waiting.join product z, op), y, rfl, ?_⟩
    exact hs.append (.cons (step_productSign sign) (ihr _ outer))
  | ofTerm _ ih =>
    intro outer
    obtain ⟨product, y, rfl, hs⟩ := ih none outer
    exact ⟨⟨none, product⟩, y, rfl, hs⟩
  | @sum ts us op x y _ sign _ ihl ihr =>
    intro outer
    obtain ⟨level, z, rfl, hs⟩ := ihl outer
    obtain ⟨product, w, rfl, hs'⟩ := ihr (some (level.total z, op)) outer
    exact ⟨⟨some (level.total z, op), product⟩, w, rfl, hs.append (.cons (step_sumSign sign) hs')⟩

end Completeness

section Soundness

/-- The tokens of a left operand that waits, with its operator. -/
inductive WaitingReads (rank : Rank) (IsSign : Kind → Prop) : Waiting → List Token → Prop
  | nothing : WaitingReads rank IsSign none []
  | left {ts : List Token} {op : Token} {x : Node} (operand : Spells rank ts x)
      (sign : IsSign op.kind) : WaitingReads rank IsSign (some (x, op)) (ts ++ [op])

inductive LevelReads : Level → List Token → Prop
  | intro {sum product : Waiting} {us vs : List Token}
      (hsum : WaitingReads .sum Kind.IsSumSign sum us)
      (hproduct : WaitingReads .term Kind.IsProductSign product vs) :
      LevelReads ⟨sum, product⟩ (us ++ vs)

/-- The tokens of the levels around, each with the parenthesis that opens the next one. -/
inductive OuterReads : List Level → List Token → Prop
  | nil : OuterReads [] []
  | cons {level : Level} {outer : List Level} {us vs : List Token} {o : Token}
      (houter : OuterReads outer us) (hlevel : LevelReads level vs) (opening : o.kind = .char '(') :
      OuterReads (level :: outer) (us ++ vs ++ [o])

inductive GoalReads : Goal → List Token → Prop
  | declare {k i n q : Token} {scope : Scope} (word : DeclarationWord k.kind scope)
      (type : i.kind = .keyword .intWord) (name : n.kind = .identifier)
      (equals : q.kind = .char '=') : GoalReads (.declare k ⟨n, n.lexeme⟩) [k, i, n, q]
  | assign {n q : Token} (name : n.kind = .identifier) (equals : q.kind = .char '=') :
      GoalReads (.assign ⟨n, n.lexeme⟩ q) [n, q]
  | print {k : Token} (word : k.kind = .keyword .printWord) : GoalReads (.print k) [k]
  | ret {k : Token} (word : k.kind = .keyword .returnWord) : GoalReads (.ret k) [k]

/-- The tokens of the statement under way, as the place in it remembers them. -/
inductive StateReads : State → List Token → Prop
  | statement : StateReads .statement []
  | typeWord {k : Token} {scope : Scope} (word : DeclarationWord k.kind scope) :
      StateReads (.typeWord k) [k]
  | name {k i : Token} {scope : Scope} (word : DeclarationWord k.kind scope)
      (type : i.kind = .keyword .intWord) : StateReads (.name k) [k, i]
  | named {k i n : Token} {scope : Scope} (word : DeclarationWord k.kind scope)
      (type : i.kind = .keyword .intWord) (name : n.kind = .identifier) :
      StateReads (.named k ⟨n, n.lexeme⟩) [k, i, n]
  | target {n : Token} (name : n.kind = .identifier) : StateReads (.target ⟨n, n.lexeme⟩) [n]
  | returned {k : Token} (word : k.kind = .keyword .returnWord) : StateReads (.returned k) [k]
  | operand {goal : Goal} {level : Level} {outer : List Level} {gs os ls : List Token}
      (hgoal : GoalReads goal gs) (houter : OuterReads outer os) (hlevel : LevelReads level ls) :
      StateReads (.operand goal level outer) (gs ++ os ++ ls)
  | operator {goal : Goal} {level : Level} {outer : List Level} {x : Node}
      {gs os ls fs : List Token} (hgoal : GoalReads goal gs) (houter : OuterReads outer os)
      (hlevel : LevelReads level ls) (factor : Spells .factor fs x) :
      StateReads (.operator goal level outer x) (gs ++ os ++ ls ++ fs)

def MoveReads : Move → List Token → Prop
  | .state s, ts => StateReads s ts
  | .complete x, ts => SpellsStatement ts x

theorem LevelReads.empty : LevelReads {} [] := .intro .nothing .nothing

/-- The product that a factor completes is the term of the last tokens. -/
theorem LevelReads.term {level : Level} {ls fs : List Token} {x : Node} (h : LevelReads level ls)
    (hx : Spells .factor fs x) : ∃ us vs, ls ++ fs = us ++ vs ∧
      WaitingReads .sum Kind.IsSumSign level.sum us ∧ Spells .term vs (level.term x) := by
  obtain @⟨sum, product, us, vs, hs, hp⟩ := h
  cases hp with
  | nothing => exact ⟨us, fs, by rw [List.append_nil], hs, .ofFactor hx⟩
  | @left ts op y operand sign =>
    refine ⟨us, ts ++ op :: fs, by simp, hs, ?_⟩
    exact .product operand sign hx

/-- The sum that a factor completes is spelled by all tokens of its level. -/
theorem LevelReads.total {level : Level} {ls fs : List Token} {x : Node} (h : LevelReads level ls)
    (hx : Spells .factor fs x) : Spells .sum (ls ++ fs) (level.total x) := by
  obtain ⟨us, vs, he, hs, ht⟩ := h.term hx
  rw [he]
  obtain ⟨sum, product⟩ := level
  cases hs with
  | nothing => exact .ofTerm ht
  | left operand sign =>
    have := Spells.sum operand sign ht
    simpa [Level.total, Waiting.join] using this

theorem declScope_eq {k : Token} {scope : Scope} (h : DeclarationWord k.kind scope) :
    declScope k = scope := by
  unfold declScope
  generalize k.kind = kind at h
  cases h <;> simp

theorem GoalReads.finish {goal : Goal} {gs ts : List Token} {x : Node} {e : Token}
    (h : GoalReads goal gs) (hx : Spells .sum ts x) (he : e.kind = .char ';') :
    SpellsStatement (gs ++ ts ++ [e]) (goal.finish x) := by
  cases h with
  | declare word type name equals =>
    rw [Goal.finish, declScope_eq word]
    exact .initialise word type name equals hx he
  | assign name equals => exact .assign name equals hx he
  | print word => exact .print word hx he
  | ret word => exact .retValue word hx he

theorem onStatement_reads {t : Token} {m : Move} (h : onStatement t = .ok m) :
    MoveReads m [t] := by
  unfold onStatement at h
  split at h
  · rename_i hk
    cases h
    have word : DeclarationWord t.kind .globalVar := by rw [hk]; exact .globalWord
    exact .typeWord word
  · rename_i hk
    cases h
    have word : DeclarationWord t.kind .localVar := by rw [hk]; exact .localWord
    exact .typeWord word
  · rename_i hk
    cases h
    exact .target hk
  · rename_i hk
    cases h
    exact .operand (.print hk) .nil .empty
  · rename_i hk
    cases h
    exact .returned hk
  · simp [refuse] at h

theorem onOperand_reads {goal : Goal} {level : Level} {outer : List Level} {gs os ls : List Token}
    {t : Token} {m : Move} (hg : GoalReads goal gs) (ho : OuterReads outer os)
    (hl : LevelReads level ls) (h : onOperand goal level outer t = .ok m) :
    MoveReads m (gs ++ os ++ ls ++ [t]) := by
  unfold onOperand at h
  split at h
  · rename_i hk
    split at h
    · rename_i v hv
      cases h
      exact .operator hg ho hl (.int hk hv)
    · cases h
  · split at h
    · rename_i hk
      cases h
      exact .operator hg ho hl (.ident hk)
    · split at h
      · rename_i hk
        cases h
        have := StateReads.operand hg (.cons ho hl hk) .empty
        simpa [MoveReads] using this
      · simp [refuse] at h

theorem onOperator_reads {goal : Goal} {level : Level} {outer : List Level} {x : Node}
    {gs os ls fs : List Token} {t : Token} {m : Move} (hg : GoalReads goal gs)
    (ho : OuterReads outer os) (hl : LevelReads level ls) (hx : Spells .factor fs x)
    (h : onOperator goal level outer x t = .ok m) :
    MoveReads m (gs ++ os ++ ls ++ fs ++ [t]) := by
  unfold onOperator at h
  split at h
  · rename_i sign
    cases h
    obtain ⟨us, vs, he, hs, ht⟩ := hl.term hx
    have := StateReads.operand hg ho (.intro hs (.left ht sign))
    rw [← List.append_assoc us, ← he] at this
    simpa [MoveReads] using this
  · split at h
    · rename_i sign
      cases h
      have := StateReads.operand hg ho (.intro (.left (hl.total hx) sign) .nothing)
      simpa [MoveReads] using this
    · split at h
      · split at h
        · rename_i he
          cases h
          cases ho
          have := hg.finish (hl.total hx) he
          simpa [MoveReads] using this
        · simp [refuse] at h
      · split at h
        · rename_i hc
          cases h
          cases ho with
          | cons houter hlevel opening =>
            have := StateReads.operator hg houter hlevel (.parens opening (hl.total hx) hc)
            simpa [MoveReads] using this
        · simp [refuse] at h

/-- Each token that is taken is one more token of the statement under way. -/
theorem step_reads {s : State} {ts : List Token} {t : Token} {m : Move} (hs : StateReads s ts)
    (h : step s t = .ok m) : MoveReads m (ts ++ [t]) := by
  cases hs with
  | statement => exact onStatement_reads h
  | typeWord word =>
    simp only [step, refuse] at h
    split at h <;> cases h
    exact .name word (by assumption)
  | name word type =>
    simp only [step, refuse] at h
    split at h <;> cases h
    exact .named word type (by assumption)
  | named word type name =>
    simp only [step, refuse] at h
    split at h
    · cases h
      exact .operand (.declare word type name (by assumption)) .nil .empty
    · split at h <;> cases h
      rw [MoveReads, declScope_eq word]
      exact .declare word type name (by assumption)
  | target name =>
    simp only [step, refuse] at h
    split at h <;> cases h
    exact .operand (.assign name (by assumption)) .nil .empty
  | returned word =>
    simp only [step] at h
    split at h
    · cases h
      exact .ret word (by assumption)
    · exact onOperand_reads (.ret word) .nil .empty h
  | operand hgoal houter hlevel => exact onOperand_reads hgoal houter hlevel h
  | operator hgoal houter hlevel factor => exact onOperator_reads hgoal houter hlevel factor h

end Soundness

/-- Take tokens one after another, none of them the end of file. -/
def feedAll (p : Parser) (ts : List Token) : Except SyntaxError Parser := ts.foldlM feed p

theorem feedAll_append (p : Parser) (ts us : List Token) :
    p.feedAll (ts ++ us) = p.feedAll ts >>= fun q => q.feedAll us := by
  simp [feedAll]

theorem feedAll_steps {p : Parser} {s : State} {ts : List Token} (h : Steps p.state ts s) :
    p.feedAll ts = .ok { p with first := p.first.or ts.head?, state := s } := by
  generalize hp : p.state = start at h
  induction h generalizing p with
  | nil => simp [feedAll, ← hp, pure, Except.pure]
  | @cons s₁ s₂ s₃ t ts first rest ih =>
    have hf : p.feed t = .ok { p with first := p.first.or (some t), state := s₂ } := by
      simp [feed, hp, first]
    change (p.feed t >>= fun q => q.feedAll ts) = _
    rw [hf]
    change Parser.feedAll _ ts = _
    rw [ih rfl]
    cases p.first <;> simp

/-- The parse of a body that ends in an end of file is the run over the body, then the finish. -/
theorem run_append_endOfFile {p : Parser} {taken : Nat} {stop : TokenStop} {ts : List Token}
    {e : Token} (hts : ∀ t ∈ ts, t.kind ≠ .endOfFile) (he : e.kind = .endOfFile) (x : Program) :
    (p.run taken stop (ts ++ [e])).result = .ok x ↔
      ∃ q, p.feedAll ts = .ok q ∧ q.finish e = .ok x := by
  induction ts generalizing p taken with
  | nil => simp [run, he, feedAll, pure, Except.pure]
  | cons t ts ih =>
    have ht : t.kind ≠ .endOfFile := hts t (by simp)
    have hfeed : p.feedAll (t :: ts) = p.feed t >>= fun q => q.feedAll ts := rfl
    rw [List.cons_append, run, if_neg ht, hfeed]
    cases p.feed t with
    | error e => simp [bind, Except.bind]
    | ok q => exact ih fun u hu => hts u (by simp [hu])

/-- A parse takes the tokens that it is fed and goes on with the others. -/
theorem run_append {p q : Parser} {ts : List Token} (hts : ∀ t ∈ ts, t.kind ≠ .endOfFile)
    (h : p.feedAll ts = .ok q) (taken : Nat) (stop : TokenStop) (us : List Token) :
    p.run taken stop (ts ++ us) = q.run (taken + ts.length) stop us := by
  induction ts generalizing p taken with
  | nil =>
    cases h
    rfl
  | cons t ts ih =>
    rw [List.forall_mem_cons] at hts
    have hfeed : p.feedAll (t :: ts) = p.feed t >>= fun r => r.feedAll ts := rfl
    rw [hfeed] at h
    rw [List.cons_append, run, if_neg hts.1]
    cases ht : p.feed t with
    | error e => simp [ht, bind, Except.bind] at h
    | ok r =>
      rw [ht] at h
      rw [List.length_cons, Nat.add_comm ts.length, ← Nat.add_assoc]
      exact ih hts.2 h (taken + 1)

/-- A parse that gives a program took some of the tokens and finished there. -/
theorem run_eq_ok {p : Parser} {taken : Nat} {stop : TokenStop} {ts : List Token} {x : Program}
    (h : (p.run taken stop ts).result = .ok x) :
    ∃ us q e, us <+: ts ∧ p.feedAll us = .ok q ∧ q.finish e = .ok x := by
  induction ts generalizing p taken with
  | nil =>
    cases stop with
    | endOfFile line => exact ⟨[], p, _, List.prefix_rfl, rfl, h⟩
    | failure f => cases h
  | cons t ts ih =>
    rw [run] at h
    split at h
    · exact ⟨[], p, t, List.nil_prefix, rfl, h⟩
    · cases hq : p.feed t with
      | error e => simp [hq] at h
      | ok q =>
        rw [hq] at h
        obtain ⟨us, r, e, hus, hr, he⟩ := ih h
        refine ⟨t :: us, r, e, List.prefix_cons_inj t |>.mpr hus, ?_, he⟩
        change (p.feed t >>= fun q => q.feedAll us) = .ok r
        rw [hq]
        exact hr

theorem feedAll_complete {p : Parser} {s : State} {ts : List Token} {e : Token} {x : Node}
    (h : Steps p.state ts s) (he : step s e = .ok (.complete x)) :
    p.feedAll (ts ++ [e]) = .ok ⟨p.first.or (ts ++ [e]).head?, x :: p.done, .statement⟩ := by
  rw [feedAll_append, feedAll_steps h]
  change Parser.feedAll _ [e] = _
  simp only [feedAll, List.foldlM_cons, List.foldlM_nil, feed, he]
  cases p.first <;> cases ts <;> simp [bind, Except.bind, pure, Except.pure]

theorem steps_declaration {k i n : Token} {scope : Scope} (word : DeclarationWord k.kind scope)
    (type : i.kind = .keyword .intWord) (name : n.kind = .identifier) :
    Steps .statement [k, i, n] (.named k ⟨n, n.lexeme⟩) := by
  have hk : step .statement k = .ok (.state (.typeWord k)) := by
    simp only [step, onStatement]
    generalize k.kind = kind at word
    cases word <;> rfl
  have hi : step (.typeWord k) i = .ok (.state (.name k)) := by simp [step, type]
  have hn : step (.name k) n = .ok (.state (.named k ⟨n, n.lexeme⟩)) := by simp [step, name]
  exact .cons hk (.cons hi (.one hn))

/-- A statement can be taken whole: all its tokens but the last lead to a place where the last
completes it. -/
def Completes (ts : List Token) (x : Node) : Prop :=
  ∃ us e s, ts = us ++ [e] ∧ Steps .statement us s ∧ step s e = .ok (.complete x)

theorem completes_value {goal : Goal} {gs ts : List Token} {x : Node} {e : Token}
    (hg : Steps .statement gs (.operand goal {} [])) (hx : Spells .sum ts x)
    (he : e.kind = .char ';') : Completes (gs ++ ts ++ [e]) (goal.finish x) := by
  obtain ⟨level, y, rfl, hs⟩ := leads_of_spells goal hx []
  exact ⟨gs ++ ts, e, _, rfl, hg.append hs, step_semicolon he⟩

/-- After `return` an expression is read as at an operand, since it does not start with a
semicolon. -/
theorem completes_retValue {k e : Token} {ts : List Token} {x : Node}
    (word : k.kind = .keyword .returnWord) (value : Spells .sum ts x) (he : e.kind = .char ';') :
    Completes ([k] ++ ts ++ [e]) (.ret k (some x)) := by
  obtain ⟨level, y, rfl, hs⟩ := leads_of_spells (.ret k) value []
  obtain ⟨t, rest, rfl, ht⟩ := value.starts
  have hne : t.kind ≠ .char ';' := by
    rcases ht with ht | ht | ht <;> rw [ht] <;> decide
  have hk : step .statement k = .ok (.state (.returned k)) := by simp [step, onStatement, word]
  refine ⟨k :: t :: rest, e, .operator (.ret k) level [] y, rfl, .cons hk ?_, step_semicolon he⟩
  cases hs with
  | cons first rest => exact .cons (by simpa [step, hne] using first) rest

theorem completes_of_spellsStatement {ts : List Token} {x : Node} (h : SpellsStatement ts x) :
    Completes ts x := by
  cases h with
  | @declare k i n e scope word type name he =>
    refine ⟨[k, i, n], e, _, rfl, steps_declaration word type name, ?_⟩
    simp [step, he, Kind.char, declScope_eq word]
  | @initialise k i n q e scope ts x word type name equals init he =>
    have hq : step (.named k ⟨n, n.lexeme⟩) q =
        .ok (.state (.operand (.declare k ⟨n, n.lexeme⟩) {} [])) := by simp [step, equals]
    rw [← declScope_eq word]
    exact completes_value ((steps_declaration word type name).append (.one hq)) init he
  | @assign n q e ts x name equals value he =>
    have hn : step .statement n = .ok (.state (.target ⟨n, n.lexeme⟩)) := by
      simp [step, onStatement, name]
    have hq : step (.target ⟨n, n.lexeme⟩) q =
        .ok (.state (.operand (.assign ⟨n, n.lexeme⟩ q) {} [])) := by simp [step, equals]
    exact completes_value (.cons hn (.one hq)) value he
  | @print k e ts x word value he =>
    have hk : step .statement k = .ok (.state (.operand (.print k) {} [])) := by
      simp [step, onStatement, word]
    exact completes_value (.one hk) value he
  | @ret k e word he =>
    refine ⟨[k], e, .returned k, rfl, .one ?_, ?_⟩
    · simp [step, onStatement, word]
    · simp [step, he]
  | retValue word value he => exact completes_retValue word value he

theorem feedAll_spellsStatements {p : Parser} {ts : List Token} {xs : List Node}
    (h : SpellsStatements ts xs) (hp : p.state = .statement) :
    p.feedAll ts = .ok ⟨p.first.or ts.head?, xs.reverse ++ p.done, .statement⟩ := by
  induction h generalizing p with
  | nil =>
    obtain ⟨first, done, state⟩ := p
    cases hp
    simp [feedAll, pure, Except.pure]
  | @cons ts us x xs first _ ih =>
    obtain ⟨vs, e, s, rfl, hs, he⟩ := completes_of_spellsStatement first
    rw [← hp] at hs
    rw [feedAll_append, feedAll_complete hs he]
    change Parser.feedAll _ us = _
    rw [ih rfl]
    cases p.first <;> cases vs <;> simp

/-- What was read so far: whole statements, then the tokens of the one under way. -/
def Reads (p : Parser) (ts : List Token) : Prop :=
  p.first = ts.head? ∧ ∃ us vs, ts = us ++ vs ∧ SpellsStatements us p.done.reverse ∧
    StateReads p.state vs

theorem feed_reads {p q : Parser} {ts : List Token} {t : Token} (hp : p.Reads ts)
    (h : p.feed t = .ok q) : q.Reads (ts ++ [t]) := by
  obtain ⟨hfirst, us, vs, rfl, hdone, hstate⟩ := hp
  have hhead : p.first.or (some t) = (us ++ vs ++ [t]).head? := by
    rw [hfirst]
    cases us ++ vs <;> simp
  unfold feed at h
  split at h
  · cases h
  · rename_i s hs
    cases h
    exact ⟨hhead, us, vs ++ [t], by simp, hdone, step_reads hstate hs⟩
  · rename_i x hs
    cases h
    refine ⟨hhead, us ++ vs ++ [t], [], by simp, ?_, .statement⟩
    have hx : SpellsStatement (vs ++ [t]) x := step_reads hstate hs
    simpa using hdone.append (.cons hx .nil)

theorem feedAll_reads {p q : Parser} {ts us : List Token} (hp : p.Reads ts)
    (h : p.feedAll us = .ok q) : q.Reads (ts ++ us) := by
  induction us generalizing p ts with
  | nil =>
    cases h
    simpa using hp
  | cons u us ih =>
    have hfeed : p.feedAll (u :: us) = p.feed u >>= fun r => r.feedAll us := rfl
    rw [hfeed] at h
    cases hu : p.feed u with
    | error e => simp [hu, bind, Except.bind] at h
    | ok r =>
      rw [hu] at h
      simpa using ih (feed_reads hp hu) h

theorem reads_nil : Parser.Reads {} [] := ⟨rfl, [], [], rfl, .nil, .statement⟩

/-- A parser can finish only between statements, so what it read is a list of them. -/
theorem finish_reads {p : Parser} {ts : List Token} {e : Token} {x : Program} (hp : p.Reads ts)
    (h : p.finish e = .ok x) : SpellsStatements ts x.stmts ∧ (ts ++ [e]).head? = some x.tok := by
  obtain ⟨hfirst, us, vs, rfl, hdone, hstate⟩ := hp
  unfold finish at h
  split at h
  · rename_i hs
    rw [hs] at hstate
    cases hstate
    cases h
    simp only [List.append_nil] at hfirst ⊢
    refine ⟨hdone, ?_⟩
    rw [hfirst]
    cases us <;> simp
  · cases h

end Parser

/-- The parser gives a tree for a list of tokens exactly if the list spells the tree, and no list
spells two trees. -/
theorem TokenStream.parse_eq_ok_iff_spells (ts : List Token) (e : Token) (stop : TokenStop)
    (hts : ∀ t ∈ ts, t.kind ≠ .endOfFile) (he : e.kind = .endOfFile) :
    (∀ x : Program, (TokenStream.parse ⟨ts ++ [e], stop⟩).result = .ok x ↔
      SpellsProgram (ts ++ [e]) x) ∧
    ∀ x y : Program, SpellsProgram (ts ++ [e]) x → SpellsProgram (ts ++ [e]) y → x = y := by
  have key (x : Program) : (TokenStream.parse ⟨ts ++ [e], stop⟩).result = .ok x ↔
      SpellsProgram (ts ++ [e]) x := by
    rw [TokenStream.parse, Parser.run_append_endOfFile hts he]
    constructor
    · rintro ⟨q, hq, hx⟩
      obtain ⟨body, first⟩ := Parser.finish_reads (Parser.feedAll_reads Parser.reads_nil hq) hx
      exact .intro body he first
    · intro h
      generalize hl : ts ++ [e] = l at h
      obtain @⟨us, e', t, xs, body, _, first⟩ := h
      obtain ⟨rfl, he'⟩ := List.append_inj' hl rfl
      cases he'
      refine ⟨_, Parser.feedAll_spellsStatements body rfl, ?_⟩
      cases ts <;> simp_all [Parser.finish]
  refine ⟨key, fun x y hx hy => ?_⟩
  have := ((key x).mpr hx).symm.trans ((key y).mpr hy)
  exact Except.ok.inj this

/-- The tokens of `print 1 - 2 - 3;`. The second difference is the outer one. -/
theorem TokenStream.spells_print_difference :
    let print : Token := ⟨.keyword .printWord, "print", 1⟩
    let minus : Token := ⟨.char '-', "-", 1⟩
    let one : Token := ⟨.intLiteral, "1", 1⟩
    let two : Token := ⟨.intLiteral, "2", 1⟩
    let three : Token := ⟨.intLiteral, "3", 1⟩
    SpellsProgram ([print, one, minus, two, minus, three, ⟨.char ';', ";", 1⟩] ++ [.endOfFile 1])
      ⟨print, [.print print (.binop minus minus.kind
        (.binop minus minus.kind (.int one 1) (.int two 2)) (.int three 3))]⟩ :=
  ((TokenStream.parse_eq_ok_iff_spells _ _ (.endOfFile 1) (by decide) rfl).1 _).mp rfl

end IntLang
