import IntLang.Scope.Session

/-! Sessions that find names by maps. A table and a builder keep every entry twice: in the order of
the declarations, and under its name. Names are only ever looked up in the maps, and listings and
offsets are only ever taken from the order. -/
namespace IntLang

/-- A map from names to values; a name has the value that was set for it last. -/
structure NameMap (α : Type) where
  pairs : List (Text × α) := []
  deriving DecidableEq, Repr

namespace NameMap

variable {α : Type}

def get? (m : NameMap α) (name : Text) : Option α :=
  (m.pairs.find? fun p => p.1 = name).map Prod.snd

def set (m : NameMap α) (name : Text) (value : α) : NameMap α :=
  ⟨(name, value) :: m.pairs.filter fun p => p.1 ≠ name⟩

end NameMap

/-- Entries in the order of their declarations, and by their names. -/
structure Ledger (α : Type) where
  named : NameMap α := {}
  order : List α := []
  deriving DecidableEq, Repr

namespace Ledger

variable {α : Type}

def find? (l : Ledger α) (name : Text) : Option α := l.named.get? name

/-- One more entry, under its name and at the end. -/
def add (l : Ledger α) (name : Text) (entry : α) : Ledger α :=
  ⟨l.named.set name entry, l.order ++ [entry]⟩

/-- A ledger of its own for entries that come from another one. -/
def ofOrder (nameOf : α → Text) (entries : List α) : Ledger α :=
  ⟨entries.foldl (fun m e => m.set (nameOf e) e) {}, entries⟩

end Ledger

namespace Indexed

abbrev Table := Ledger Global

/-- The new entry comes with the table that has it. -/
def Table.declare (t : Table) (name : Text) (line : Int) : Except SemanticError (Global × Table) :=
  match t.find? name with
  | some previous => .error ⟨line, name, .globalRedeclared previous.line⟩
  | none =>
    let entry : Global := ⟨name, labelFor name t.order.length, line⟩
    .ok (entry, t.add name entry)

/-- A fixed frame keeps its locals and its size. -/
structure Frame where
  locals : Ledger Local := {}
  size : Nat := 0
  fixed : Bool := false
  deriving DecidableEq, Repr

namespace Frame

def check (f : Frame) : Except Misuse Unit := if f.fixed then .ok () else .error .frameNotFixed

def resolve (f : Frame) (t : Table) (name : Text) : Except Misuse Scope := do
  f.check
  if (f.locals.find? name).isSome then return .localVar
  if (t.find? name).isSome then return .globalVar
  return .unknown

def globalLabel (f : Frame) (t : Table) (name : Text) : Except Misuse Text := do
  f.check
  if (f.locals.find? name).isSome then throw (.notGlobal name)
  match t.find? name with
  | some g => return g.label
  | none => throw (.noGlobal name)

def localOffset (f : Frame) (name : Text) : Except Misuse Int := do
  f.check
  match f.locals.find? name with
  | some l => return l.offset
  | none => throw (.noLocal name)

end Frame

structure Builder where
  locals : Ledger Local := {}
  finished : Bool := false
  deriving DecidableEq, Repr

namespace Builder

def check (b : Builder) : Except Halt Unit :=
  if b.finished then .error (.misused .builderFinished) else .ok ()

def declareGlobal (b : Builder) (t : Table) (name : Text) (line : Int) : Except Halt Table := do
  b.check
  match b.locals.find? name with
  | some previous => throw (.rejected ⟨line, name, .globalHitsLocal previous.line⟩)
  | none =>
    match t.declare name line with
    | .ok (_, t) => return t
    | .error e => throw (.rejected e)

def declareLocal (b : Builder) (t : Table) (name : Text) (line : Int) : Except Halt Builder := do
  b.check
  match b.locals.find? name with
  | some previous => throw (.rejected ⟨line, name, .localRedeclared previous.line⟩)
  | none =>
    match t.find? name with
    | some previous => throw (.rejected ⟨line, name, .localHitsGlobal previous.line⟩)
    | none =>
      let entry : Local := ⟨name, -(wordSize * (b.locals.order.length + 1) : Nat), line⟩
      return { b with locals := b.locals.add name entry }

def lookup (b : Builder) (t : Table) (name : Text) : Scope :=
  if (b.locals.find? name).isSome then .localVar
  else if (t.find? name).isSome then .globalVar
  else .unknown

/-- The frame gets a ledger of its own, filled from the order. -/
def finish (b : Builder) : Except Halt (Frame × Builder) := do
  b.check
  let entries := b.locals.order
  let size := (wordSize * entries.length + 15) / 16 * 16
  return (⟨.ofOrder Local.name entries, size, true⟩, { b with finished := true })

end Builder

structure Session where
  table : Table := {}
  builders : List Builder := []
  frames : List Frame := []
  deriving DecidableEq, Repr

namespace Session

open IntLang.Session (Action Answer answer)

def frameAt (s : Session) : Option Nat → Frame
  | none => {}
  | some n => s.frames.getD n {}

def withBuilder (s : Session) (n : Nat) (act : Builder → Session × Answer) : Session × Answer :=
  match s.builders[n]? with
  | none => (s, .missing)
  | some b => act b

def step (s : Session) : Action → Session × Answer
  | .declareGlobal name line =>
    match s.table.declare name line with
    | .ok (g, t) => ({ s with table := t }, .globalEntry (some g))
    | .error e => (s, .halted (.rejected e))
  | .findGlobal name => (s, .globalEntry (s.table.find? name))
  | .listGlobals => (s, .globalEntries s.table.order)
  | .newBuilder => ({ s with builders := s.builders ++ [{}] }, .number s.builders.length)
  | .builderGlobal n name line => s.withBuilder n fun b =>
    match b.declareGlobal s.table name line with
    | .ok t => ({ s with table := t }, .done)
    | .error h => (s, .halted h)
  | .builderLocal n name line => s.withBuilder n fun b =>
    match b.declareLocal s.table name line with
    | .ok b => ({ s with builders := s.builders.set n b }, .done)
    | .error h => (s, .halted h)
  | .lookup n name => s.withBuilder n fun b => (s, .scope (b.lookup s.table name))
  | .finish n => s.withBuilder n fun b =>
    match b.finish with
    | .ok (f, b) =>
      ({ s with builders := s.builders.set n b, frames := s.frames ++ [f] },
        .finished s.frames.length ⟨f.locals.order, f.fixed⟩)
    | .error h => (s, .halted h)
  | .resolve n name => (s, answer .scope ((s.frameAt n).resolve s.table name))
  | .label n name => (s, answer .text ((s.frameAt n).globalLabel s.table name))
  | .offset n name => (s, answer .number ((s.frameAt n).localOffset name))
  | .size n => (s, .number (s.frameAt n).size)
  | .listLocals n => (s, .localEntries (s.frameAt n).locals.order)

/-- The session after a run, and the answers in order. -/
def run (s : Session) : List Action → Session × List Answer
  | [] => (s, [])
  | a :: rest =>
    let (s, answer) := s.step a
    let (s, answers) := s.run rest
    (s, answer :: answers)

end Session
end Indexed
end IntLang
