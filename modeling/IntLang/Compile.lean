import IntLang.Code.Generator
import IntLang.Report.Diagnostic
import IntLang.Tree.Dump

/-! From a source to its assembly text, and a record of what happened on the way. -/
namespace IntLang

/-- Compile all that a reader gives. -/
def Reader.compile (r : Reader) : Except Fault Text :=
  match r.parse.result with
  | .error e => .error (.error (.during "parse" e.toError))
  | .ok p =>
    match (({} : Generator).generate p).1 with
    | .ok text => .ok text
    | .error f => .error (f.during "generate")

def compileText (source : List UInt8) : Except Fault Text := (Reader.ofBytes source).compile

/-- Steps of a compilation that are worth a record. -/
inductive Event where
  | source (size : Nat) (name : Text)
  | parsed (stmts : Nat) (lines : Int)
  | tree (dump : Text)
  | generating (stmts : Nat)
  | slot (l : Local)
  | frameFixed (locals size : Nat)
  | frame (locals size globals : Nat)
  | emitted (lines : Nat)
  | generated (error : Option Text)
  deriving DecidableEq, Repr

namespace Event

/-- The record of a frame and of the table it goes with. -/
def ofFrame (f : Frame) (t : Table) : List Event :=
  f.locals.map slot ++
    [.frameFixed f.locals.length f.size, .frame f.locals.length f.size t.globals.length]

/-- The record of one program going through a new generator. -/
def ofProgram (p : Program) : List Event :=
  let (result, g) := ({} : Generator).generate p
  let layout := match p.node.layoutFrame {} with
    | (.ok f, t) => ofFrame f t
    | (.error _, _) => []
  let ending := match result with
    | .ok _ => [.emitted g.lines.length, .generated none]
    | .error f => [.generated (some f.text)]
  .generating p.stmts.length :: layout ++ ending

/-- The record of a compilation of a text under a name. -/
def ofCompilation (name : Text) (source : List UInt8) : List Event :=
  let outcome := (Reader.ofBytes source).parse
  .source source.length name ::
    match outcome.result with
    | .error _ => []
    | .ok p => .parsed p.stmts.length outcome.last.line :: .tree p.dump :: ofProgram p

end Event
end IntLang
