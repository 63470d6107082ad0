import IntLang.Proofs.Tree.Source

/-! What a program means. Variables hold signed 64-bit integers, statements run in order, and a
division without a result ends the run. -/
namespace IntLang

/-- The values of the variables. -/
abbrev Store := Text → Int64

def Store.set (σ : Store) (name : Text) (v : Int64) : Store := fun n => if n = name then v else σ n

inductive Ending where
  | value (v : Int64)
  | trap
  deriving DecidableEq, Repr

/-- What can be seen of a run. -/
structure Outcome where
  printed : List Int64 := []
  ending : Ending
  deriving DecidableEq, Repr

/-- The integers that a signed 64-bit word can hold. -/
def FitsWord (n : Int) : Prop := -(Decimal.wordLimit : Int) ≤ n ∧ n < Decimal.wordLimit

instance (n : Int) : Decidable (FitsWord n) := inferInstanceAs (Decidable (_ ∧ _))

/-- Sums, differences and products wrap around. Quotients are cut off toward zero; a quotient by
zero or one that does not fit has no value. -/
def Operator.apply (op : Operator) (a b : Int64) : Option Int64 :=
  match op with
  | .add => some (.ofInt (a.toInt + b.toInt))
  | .sub => some (.ofInt (a.toInt - b.toInt))
  | .mul => some (.ofInt (a.toInt * b.toInt))
  | .div =>
    if b.toInt ≠ 0 ∧ FitsWord (a.toInt.tdiv b.toInt) then some (.ofInt (a.toInt.tdiv b.toInt))
    else none

/-- The value of an expression, if no division is without one. -/
def Expr.eval (σ : Store) : Expr → Option Int64
  | .int _ value => some value
  | .var id => some (σ id.name)
  | .binary _ op left right =>
    match left.eval σ, right.eval σ with
    | some a, some b => op.apply a b
    | _, _ => none

/-- What is left out counts as zero. -/
def evalOrZero (σ : Store) : Option Expr → Option Int64
  | none => some 0
  | some e => e.eval σ

/-- What one statement does: it prints and changes the store, or it ends the run. -/
inductive Effect where
  | next (σ : Store) (printed : List Int64)
  | stop (ending : Ending)

def Effect.ofValue (v : Option Int64) (next : Int64 → Effect) : Effect :=
  match v with
  | some v => next v
  | none => .stop .trap

def Stmt.effect (σ : Store) : Stmt → Effect
  | .declare _ _ name init =>
    .ofValue (evalOrZero σ init) fun v => .next (σ.set name.name v) []
  | .assign _ target value => .ofValue (value.eval σ) fun v => .next (σ.set target.name v) []
  | .print _ value => .ofValue (value.eval σ) fun v => .next σ [v]
  | .ret _ value => .ofValue (evalOrZero σ value) fun v => .stop (.value v)

/-- The outcome of a list of statements, run with these values of the variables. A run that comes
to the end has the value zero. -/
def outcome (σ : Store) : List Stmt → Outcome
  | [] => { ending := .value 0 }
  | st :: rest =>
    match st.effect σ with
    | .next σ' printed =>
      let later := outcome σ' rest
      { later with printed := printed ++ later.printed }
    | .stop ending => { ending }

end IntLang
