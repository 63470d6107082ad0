import IntLang.Scope.Frame
import IntLang.Tree.Basic

/-! The first pass over a tree: every name is declared before it is used and only once, and every
local gets its place in the frame. -/
namespace IntLang

structure Scopes where
  table : Table
  builder : Builder
  deriving DecidableEq, Repr

/-- A computation that declares names. What was declared before a failure stays declared. -/
abbrev Declaring := EStateM Halt Scopes

namespace Declaring

def ofGlobal (id : Ident) : Declaring Unit := fun s =>
  match s.builder.declareGlobal s.table id.name id.tok.line with
  | .ok t => .ok () { s with table := t }
  | .error h => .error h s

def ofLocal (id : Ident) : Declaring Unit := fun s =>
  match s.builder.declareLocal s.table id.name id.tok.line with
  | .ok b => .ok () { s with builder := b }
  | .error h => .error h s

def declare (scope : Scope) (id : Ident) : Declaring Unit :=
  match scope with
  | .globalVar => ofGlobal id
  | .localVar => ofLocal id
  | other => throw (.misused (.badScope other))

/-- A use of a name needs an earlier declaration. -/
def use (id : Ident) : Declaring Unit := fun s =>
  if s.builder.lookup s.table id.name = .unknown then
    .error (.rejected ⟨id.tok.line, id.name, .undeclared⟩) s
  else .ok () s

end Declaring

mutual

/-- The initialiser of a declaration comes before the name, so it cannot use it. -/
def Node.layout : Node → Declaring Unit
  | .program _ stmts => layoutAll stmts
  | .ident id => Declaring.use id
  | .int _ _ => pure ()
  | .binop _ _ left right => do
    left.layout
    right.layout
  | .assign _ target value => do
    Declaring.use target
    value.layout
  | .decl _ scope name none => Declaring.declare scope name
  | .decl _ scope name (some init) => do
    init.layout
    Declaring.declare scope name
  | .print _ value => value.layout
  | .ret _ none => pure ()
  | .ret _ (some value) => value.layout
  | .late _ => pure ()

def layoutAll : List Node → Declaring Unit
  | [] => pure ()
  | node :: rest => do
    node.layout
    layoutAll rest

end

/-- The frame of a whole body, and the table after it. -/
def Node.layoutFrame (t : Table) (node : Node) : Except Halt Frame × Table :=
  match node.layout ⟨t, {}⟩ with
  | .ok _ s => (s.builder.finish.map Prod.fst, s.table)
  | .error h s => (.error h, s.table)

end IntLang
