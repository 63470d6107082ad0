import IntLang.Scope.Table

/-! The stack frame of a function body. A builder collects its locals one by one, each in the next
word below the frame base, until the frame is fixed. Globals are looked up in the table of the
compilation, which both are used with. -/
namespace IntLang

structure Local where
  name : Text
  offset : Int
  line : Int
  deriving DecidableEq, Repr

/-- The size of one variable in bytes. -/
def wordSize : Nat := 8

/-- The frame of a body: only a fixed one may be asked about names. -/
structure Frame where
  locals : List Local := []
  fixed : Bool := false
  deriving DecidableEq, Repr

namespace Frame

def find? (f : Frame) (name : Text) : Option Local := f.locals.find? fun l => l.name = name

/-- The bytes to reserve below the frame base: room for the locals, up to a multiple of 16. -/
def size (f : Frame) : Nat := (wordSize * f.locals.length + 15) / 16 * 16

def check (f : Frame) : Except Misuse Unit := if f.fixed then .ok () else .error .frameNotFixed

def resolve (f : Frame) (t : Table) (name : Text) : Except Misuse Scope := do
  f.check
  if (f.find? name).isSome then return .localVar
  if (t.find? name).isSome then return .globalVar
  return .unknown

def globalLabel (f : Frame) (t : Table) (name : Text) : Except Misuse Text := do
  f.check
  if (f.find? name).isSome then throw (.notGlobal name)
  match t.find? name with
  | some g => return g.label
  | none => throw (.noGlobal name)

def localOffset (f : Frame) (name : Text) : Except Misuse Int := do
  f.check
  match f.find? name with
  | some l => return l.offset
  | none => throw (.noLocal name)

end Frame

structure Builder where
  locals : List Local := []
  finished : Bool := false
  deriving DecidableEq, Repr

namespace Builder

def find? (b : Builder) (name : Text) : Option Local := b.locals.find? fun l => l.name = name

def check (b : Builder) : Except Halt Unit :=
  if b.finished then .error (.misused .builderFinished) else .ok ()

/-- The entry that a declaration adds. -/
def entry (b : Builder) (name : Text) (line : Int) : Local :=
  ⟨name, -(wordSize * (b.locals.length + 1) : Nat), line⟩

/-- A global declared in the body goes to the table. -/
def declareGlobal (b : Builder) (t : Table) (name : Text) (line : Int) : Except Halt Table := do
  b.check
  match b.find? name with
  | some previous => throw (.rejected ⟨line, name, .globalHitsLocal previous.line⟩)
  | none =>
    match t.declare name line with
    | .ok t => return t
    | .error e => throw (.rejected e)

def declareLocal (b : Builder) (t : Table) (name : Text) (line : Int) : Except Halt Builder := do
  b.check
  match b.find? name with
  | some previous => throw (.rejected ⟨line, name, .localRedeclared previous.line⟩)
  | none =>
    match t.find? name with
    | some previous => throw (.rejected ⟨line, name, .localHitsGlobal previous.line⟩)
    | none => return { b with locals := b.locals ++ [b.entry name line] }

/-- What a name stands for among the declarations so far. -/
def lookup (b : Builder) (t : Table) (name : Text) : Scope :=
  if (b.find? name).isSome then .localVar
  else if (t.find? name).isSome then .globalVar
  else .unknown

/-- Fix the frame. The builder takes no declaration after that. -/
def finish (b : Builder) : Except Halt (Frame × Builder) := do
  b.check
  return (⟨b.locals, true⟩, { b with finished := true })

end Builder
end IntLang
