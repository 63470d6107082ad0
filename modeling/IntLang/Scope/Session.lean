import IntLang.Scope.Frame

/-! Runs over one table with any number of builders and frames. -/
namespace IntLang

structure Session where
  table : Table := {}
  builders : List Builder := []
  frames : List Frame := []
  deriving DecidableEq, Repr

namespace Session

/-- What can be asked for. A frame is given by its number, or by none for one that no builder
made. -/
inductive Action where
  | declareGlobal (name : Text) (line : Int)
  | findGlobal (name : Text)
  | listGlobals
  | newBuilder
  | builderGlobal (builder : Nat) (name : Text) (line : Int)
  | builderLocal (builder : Nat) (name : Text) (line : Int)
  | lookup (builder : Nat) (name : Text)
  | finish (builder : Nat)
  | resolve (frame : Option Nat) (name : Text)
  | label (frame : Option Nat) (name : Text)
  | offset (frame : Option Nat) (name : Text)
  | size (frame : Option Nat)
  | listLocals (frame : Option Nat)
  deriving DecidableEq, Repr

inductive Answer where
  | done
  | halted (h : Halt)
  | globalEntry (g : Option Global)
  | globalEntries (gs : List Global)
  | number (n : Int)
  | scope (s : Scope)
  | text (t : Text)
  | finished (number : Nat) (frame : Frame)
  | localEntries (ls : List Local)
  /-- There is no builder of this number. -/
  | missing
  deriving DecidableEq, Repr

def frameAt (s : Session) : Option Nat → Frame
  | none => {}
  | some n => s.frames.getD n {}

/-- Run an operation on a builder, if there is one. -/
def withBuilder (s : Session) (n : Nat) (act : Builder → Session × Answer) : Session × Answer :=
  match s.builders[n]? with
  | none => (s, .missing)
  | some b => act b

def answer {α : Type} (ofValue : α → Answer) : Except Misuse α → Answer
  | .ok a => ofValue a
  | .error m => .halted (.misused m)

def step (s : Session) : Action → Session × Answer
  | .declareGlobal name line =>
    match s.table.declare name line with
    | .ok t => ({ s with table := t }, .globalEntry (t.find? name))
    | .error e => (s, .halted (.rejected e))
  | .findGlobal name => (s, .globalEntry (s.table.find? name))
  | .listGlobals => (s, .globalEntries s.table.globals)
  | .newBuilder => ({ s with builders := s.builders ++ [{}] }, .number s.builders.length)
  | .builderGlobal n name line => s.withBuilder n fun b =>
    match b.declareGlobal s.table name line with
    | .ok t => ({ s with table := t }, .done)
    | .error h => (s, .halted h)
  | .builderLocal n name line => s.withBuilder n fun b =>
    match b.declareLocal s.table name line with
    | .ok b => ({ s with builders := s.builders.set n b }, .done)
    | .error h => (s, .halted h)
  | .lookup n name => s.withBuilder n fun b => (s, .scope (b.lookup s.table name))
  | .finish n => s.withBuilder n fun b =>
    match b.finish with
    | .ok (f, b) =>
      ({ s with builders := s.builders.set n b, frames := s.frames ++ [f] },
        .finished s.frames.length f)
    | .error h => (s, .halted h)
  | .resolve n name => (s, answer .scope ((s.frameAt n).resolve s.table name))
  | .label n name => (s, answer .text ((s.frameAt n).globalLabel s.table name))
  | .offset n name => (s, answer .number ((s.frameAt n).localOffset name))
  | .size n => (s, .number (s.frameAt n).size)
  | .listLocals n => (s, .localEntries (s.frameAt n).locals)

/-- The session after a run, and the answers in order. -/
def run (s : Session) : List Action → Session × List Answer
  | [] => (s, [])
  | a :: rest =>
    let (s, answer) := s.step a
    let (s, answers) := s.run rest
    (s, answer :: answers)

end Session
end IntLang
