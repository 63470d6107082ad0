import IntLang.Code.Emit
import IntLang.Report.Error
import IntLang.Scope.Layout

/-! The assembly text of a program. A generator keeps the table of globals and all that was written
so far, and each program adds to it. -/
namespace IntLang

def entryLabel : Text := "main"

def headerText : Text :=
  "; generated by mini\n\tdefault rel\n\tglobal " ++ entryLabel ++ "\n\textern " ++ printFunction ++ "\n"

/-- The definition of one global, which starts as zero. -/
def Global.definition (g : Global) : Text :=
  g.label ++ ":\tdq 0\t; " ++ g.name ++ ", line " ++ Decimal.ofInt g.line ++ "\n"

def Table.dataText (t : Table) : Text :=
  "\n\tsection .data\n" ++ printFormat ++ ":\tdb \"%ld\", 10, 0\n" ++
    t.globals.flatMap Global.definition

def stackNote : Text := "\n\tsection .note.GNU-stack noalloc noexec nowrite progbits\n"

def textHeader : Text := "\n\tsection .text\n" ++ entryLabel ++ ":\n"

/-- Set up the frame; no room is made for a frame of size zero. -/
def prologue (f : Frame) : List Instr :=
  [.push .frameBase, .mov (.reg .frameBase) (.reg .rsp)] ++
    if f.size = 0 then [] else [.sub .rsp (.imm f.size)]

/-- What follows the body: its value is zero if no statement returned. -/
def closing : List Instr := clearResult :: epilogue

def Emission.instrs (e : Emission) : List Instr := e.code.flatMap Piece.instrs

structure Generator where
  table : Table := {}
  output : Text := []
  lines : List Text := []
  deriving DecidableEq, Repr

namespace Generator

/-- One line of the text section. -/
def lineText (line : Text) : Text := "\t" ++ line ++ "\n"

def emitLines (g : Generator) (ls : List Text) : Generator :=
  { g with output := g.output ++ ls.flatMap lineText, lines := g.lines ++ ls }

def emitInstrs (g : Generator) (is : List Instr) : Generator := g.emitLines (is.map Instr.text)

/-- All that stands before the instructions of a program. -/
def preamble (t : Table) : Text := headerText ++ t.dataText ++ stackNote ++ textHeader

/-- The second pass, after the first has given the frame and the table. A refused program takes
all output with it. -/
def emitProgram (g : Generator) (f : Frame) (p : Program) : Except Fault Text × Generator :=
  let body := p.node.emitThen f g.table {}
  let g := { g with output := g.output ++ preamble g.table }.emitInstrs (prologue f ++ body.instrs)
  match body.halt with
  | none =>
    let g := g.emitInstrs closing
    (.ok g.output, g)
  | some (.rejected e) =>
    (.error (.error (.during "emit" (.inScope e))), { g with output := [], lines := [] })
  | some (.misused m) => (.error (.misuse m), g)

/-- The text of a program after all that was written before. If the first pass fails, only the
globals it declared stay. -/
def generate (g : Generator) (p : Program) : Except Fault Text × Generator :=
  match p.node.layoutFrame g.table with
  | (.ok f, t) => { g with table := t }.emitProgram f p
  | (.error h, t) => (.error ((Fault.ofHalt h).during "preprocess locals"), { g with table := t })

end Generator
end IntLang
