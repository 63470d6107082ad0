import IntLang.Proofs.Tree.Source
import IntLang.Scope.Layout

/-! What the first pass does to the declarations. A declaration is added at the end or refused,
and none is ever taken back, whether the pass succeeds or fails. -/
namespace IntLang

namespace Table

theorem declare_eq_ok {t t' : Table} {name : Text} {line : Int} :
    t.declare name line = .ok t' ↔
      t.find? name = none ∧ t' = ⟨t.globals ++ [t.entry name line]⟩ := by
  unfold declare
  cases t.find? name with
  | none => simp [eq_comm]
  | some previous => simp

/-- Some more globals were declared, one after another. -/
inductive Declares : Table → Table → Prop
  | refl (t : Table) : Declares t t
  | step {t t' t'' : Table} {name : Text} {line : Int} (before : Declares t t')
      (h : t'.declare name line = .ok t'') : Declares t t''

theorem Declares.globals {t t' : Table} (h : Declares t t') : t.globals <+: t'.globals := by
  induction h with
  | refl => exact List.prefix_rfl
  | step _ h ih =>
    obtain ⟨_, rfl⟩ := declare_eq_ok.mp h
    exact ih.trans (List.prefix_append _ _)

end Table

namespace Builder

theorem declareGlobal_eq_ok {b : Builder} {t t' : Table} {name : Text} {line : Int} :
    b.declareGlobal t name line = .ok t' ↔
      b.finished = false ∧ b.find? name = none ∧ t.declare name line = .ok t' := by
  unfold declareGlobal check
  cases b.finished with
  | true => simp [bind, Except.bind]
  | false =>
    cases b.find? name with
    | some previous => simp [bind, Except.bind, throw, throwThe, MonadExceptOf.throw]
    | none =>
      cases t.declare name line <;>
        simp [bind, Except.bind, throw, throwThe, MonadExceptOf.throw, pure, Except.pure]

theorem declareLocal_eq_ok {b b' : Builder} {t : Table} {name : Text} {line : Int} :
    b.declareLocal t name line = .ok b' ↔
      b.finished = false ∧ b.find? name = none ∧ t.find? name = none ∧
        b' = { b with locals := b.locals ++ [b.entry name line] } := by
  unfold declareLocal check
  cases b.finished with
  | true => simp [bind, Except.bind]
  | false =>
    cases b.find? name with
    | some previous => simp [bind, Except.bind, throw, throwThe, MonadExceptOf.throw]
    | none =>
      cases t.find? name <;>
        simp [bind, Except.bind, throw, throwThe, MonadExceptOf.throw, pure, Except.pure, eq_comm]

theorem finish_eq_ok {b b' : Builder} {f : Frame} :
    b.finish = .ok (f, b') ↔
      b.finished = false ∧ f = ⟨b.locals, true⟩ ∧ b' = { b with finished := true } := by
  unfold finish check
  cases b.finished with
  | true => simp [bind, Except.bind]
  | false => simp [bind, Except.bind, pure, Except.pure, eq_comm]

end Builder

/-- What the first pass meets on its way: a use of a name or a declaration. -/
inductive Naming where
  | use (id : Ident)
  | declare (scope : Scope) (id : Ident)
  deriving DecidableEq, Repr

def Naming.act : Naming → Declaring Unit
  | .use id => Declaring.use id
  | .declare scope id => Declaring.declare scope id

def actAll : List Naming → Declaring Unit
  | [] => pure ()
  | n :: ns => do
    n.act
    actAll ns

theorem actAll_append (ns ns' : List Naming) :
    actAll (ns ++ ns') = (do actAll ns; actAll ns') := by
  induction ns with
  | nil => simp [actAll]
  | cons n ns ih => simp [actAll, ih]

mutual

/-- The uses and declarations of a tree in the order of the first pass. -/
def Node.namings : Node → List Naming
  | .program _ stmts => namingsAll stmts
  | .ident id => [.use id]
  | .int _ _ => []
  | .binop _ _ left right => left.namings ++ right.namings
  | .assign _ target value => .use target :: value.namings
  | .decl _ scope name none => [.declare scope name]
  | .decl _ scope name (some init) => init.namings ++ [.declare scope name]
  | .print _ value => value.namings
  | .ret _ none => []
  | .ret _ (some value) => value.namings
  | .late _ => []

def namingsAll : List Node → List Naming
  | [] => []
  | node :: rest => node.namings ++ namingsAll rest

end

theorem layoutAll_eq {ns : List Node} (h : ∀ n ∈ ns, n.layout = actAll n.namings) :
    layoutAll ns = actAll (namingsAll ns) := by
  induction ns with
  | nil => rfl
  | cons n ns ih =>
    rw [layoutAll, namingsAll, actAll_append, h n (by simp), ih fun m hm => h m (by simp [hm])]

/-- The first pass is a run through the uses and declarations of the tree. -/
theorem Node.layout_eq (n : Node) : n.layout = actAll n.namings := by
  induction n using Node.induction with
  | program tok stmts ih => exact layoutAll_eq ih
  | ident id => simp [layout, namings, actAll, Naming.act]
  | int tok value => rfl
  | binop tok op left right ihl ihr => rw [layout, namings, actAll_append, ihl, ihr]
  | assign tok target value ih => rw [layout, namings, actAll, ih, Naming.act]
  | declare tok scope name => simp [layout, namings, actAll, Naming.act]
  | initialise tok scope name init ih =>
    simp [layout, namings, actAll_append, actAll, Naming.act, ih]
  | print tok value ih => exact ih
  | ret tok => rfl
  | retValue tok value ih => exact ih
  | late inner _ => rfl

/-- An expression only uses names. -/
theorem Expr.namings_node (e : Expr) : e.node.namings = e.idents.map .use := by
  induction e with
  | int tok value => rfl
  | var id => rfl
  | binary tok op left right ihl ihr => rw [node, Node.namings, ihl, ihr, idents, List.map_append]

/-- One declaration after another leads from the first state to the second, and every name that is
declared has a property. -/
inductive Scopes.Extends (P : Text → Prop) (s : Scopes) : Scopes → Prop
  | refl : Extends P s s
  | declareGlobal {s' : Scopes} {name : Text} {line : Int} {t : Table} (before : Extends P s s')
      (named : P name) (h : s'.builder.declareGlobal s'.table name line = .ok t) :
      Extends P s { s' with table := t }
  | declareLocal {s' : Scopes} {name : Text} {line : Int} {b : Builder} (before : Extends P s s')
      (named : P name) (h : s'.builder.declareLocal s'.table name line = .ok b) :
      Extends P s { s' with builder := b }

theorem Scopes.Extends.trans {P : Text → Prop} {s s' s'' : Scopes} (h : s.Extends P s')
    (h' : s'.Extends P s'') : s.Extends P s'' := by
  induction h' with
  | refl => exact h
  | declareGlobal _ named hd ih => exact .declareGlobal ih named hd
  | declareLocal _ named hd ih => exact .declareLocal ih named hd

/-- The declarations of the first state are still there in the second, in their places. -/
structure Scopes.Grows (s s' : Scopes) : Prop where
  locals : s.builder.locals <+: s'.builder.locals
  globals : s.table.globals <+: s'.table.globals
  finished : s'.builder.finished = s.builder.finished

theorem Scopes.Extends.grows {P : Text → Prop} {s s' : Scopes} (h : s.Extends P s') :
    s.Grows s' := by
  induction h with
  | refl => exact ⟨List.prefix_rfl, List.prefix_rfl, rfl⟩
  | declareGlobal _ _ hd ih =>
    obtain ⟨_, _, ht⟩ := Builder.declareGlobal_eq_ok.mp hd
    obtain ⟨_, rfl⟩ := Table.declare_eq_ok.mp ht
    exact ⟨ih.locals, ih.globals.trans (List.prefix_append _ _), ih.finished⟩
  | declareLocal _ _ hd ih =>
    obtain ⟨_, _, _, rfl⟩ := Builder.declareLocal_eq_ok.mp hd
    exact ⟨ih.locals.trans (List.prefix_append _ _), ih.globals, ih.finished⟩

/-- What the naming declares has a property. -/
def Naming.Declares (P : Text → Prop) : Naming → Prop
  | .use _ => True
  | .declare _ id => P id.name

/-- The declarations after a computation, also after one that failed. -/
def Declaring.after {α : Type} (x : Declaring α) (s : Scopes) : Scopes :=
  match x s with
  | .ok _ s' => s'
  | .error _ s' => s'

theorem Naming.act_extends {P : Text → Prop} (n : Naming) (hn : n.Declares P) (s : Scopes) :
    s.Extends P (n.act.after s) := by
  cases n with
  | use id =>
    have h : (Declaring.use id).after s = s := by
      unfold Declaring.after Declaring.use
      split <;> split at * <;> simp_all
    rw [act, h]
    exact .refl
  | declare scope id =>
    cases scope with
    | globalVar =>
      change s.Extends P ((Declaring.ofGlobal id).after s)
      unfold Declaring.after Declaring.ofGlobal
      cases h : s.builder.declareGlobal s.table id.name id.tok.line with
      | error e => exact .refl
      | ok t => exact .declareGlobal .refl hn h
    | localVar =>
      change s.Extends P ((Declaring.ofLocal id).after s)
      unfold Declaring.after Declaring.ofLocal
      cases h : s.builder.declareLocal s.table id.name id.tok.line with
      | error e => exact .refl
      | ok b => exact .declareLocal .refl hn h
    | unknown => exact .refl
    | other code => exact .refl

/-- A run only adds declarations, whether it succeeds or fails. -/
theorem actAll_extends {P : Text → Prop} {ns : List Naming} (h : ∀ n ∈ ns, n.Declares P)
    (s : Scopes) : s.Extends P ((actAll ns).after s) := by
  induction ns generalizing s with
  | nil => exact .refl
  | cons n ns ih =>
    have hn := n.act_extends (h n (by simp)) s
    simp only [Declaring.after, actAll, Bind.bind, EStateM.bind] at hn ⊢
    cases hs : n.act s with
    | error e s' => simpa only [hs] using hn
    | ok a s' =>
      simp only [hs] at hn ⊢
      exact hn.trans (ih (fun m hm => h m (by simp [hm])) s')

theorem Node.layout_extends {P : Text → Prop} (n : Node) (h : ∀ m ∈ n.namings, m.Declares P)
    {s s' : Scopes} (hs : n.layout s = .ok () s') : s.Extends P s' := by
  have := actAll_extends h s
  rwa [← n.layout_eq, Declaring.after, hs] at this

theorem Naming.act_grows (n : Naming) {s s' : Scopes} (h : n.act s = .ok () s') : s.Grows s' := by
  have hn : n.Declares fun _ => True := by cases n <;> trivial
  have := n.act_extends hn s
  rw [Declaring.after, h] at this
  exact this.grows

theorem Node.layout_grows {n : Node} {s s' : Scopes} (h : n.layout s = .ok () s') : s.Grows s' := by
  have hn : ∀ m ∈ n.namings, m.Declares fun _ => True := fun m _ => by cases m <;> trivial
  exact (n.layout_extends hn h).grows

end IntLang
