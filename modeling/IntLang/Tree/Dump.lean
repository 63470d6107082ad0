import IntLang.Tree.Basic

/-! A tree as indented text, one node to a line and two columns to a level. The lines come in the
order of a walk that meets a node before its children. -/
namespace IntLang

/-- No indent for a depth of zero or less. -/
def indent (depth : Int) : Text := List.replicate (2 * depth.toNat) (.char ' ')

/-- One line of a dump: how deep the node is, what it is, and the line of its token if it is
shown. -/
structure DumpLine where
  depth : Int
  what : Text
  line : Option Int
  deriving DecidableEq, Repr

def DumpLine.text (l : DumpLine) : Text :=
  indent l.depth ++ l.what ++ match l.line with
    | none => "\n"
    | some n => " (line " ++ Decimal.ofInt n ++ ")\n"

def Token.dumpLine (tok : Token) (depth : Int) (what : Text) : DumpLine :=
  ⟨depth, what, some tok.line⟩

def Ident.dumpLine (depth : Int) (id : Ident) : DumpLine :=
  id.tok.dumpLine depth ("identifier: " ++ id.name)

mutual

def Node.dumpLines (depth : Int) : Node → List DumpLine
  | .program _ stmts => ⟨depth, "program:", none⟩ :: dumpLinesAll (depth + 1) stmts
  | .ident id => [id.dumpLine depth]
  | .int tok value => [tok.dumpLine depth ("int: " ++ Decimal.ofInt value.toInt)]
  | .binop tok op left right =>
    tok.dumpLine depth ("binop: " ++ [Glyph.ofCode op.code]) ::
      left.dumpLines (depth + 1) ++ right.dumpLines (depth + 1)
  | .assign tok target value =>
    tok.dumpLine depth "assignment:" :: target.dumpLine (depth + 1) :: value.dumpLines (depth + 1)
  | .decl tok scope name none =>
    [tok.dumpLine depth ("declaration: " ++ scope.text ++ " int"), name.dumpLine (depth + 1)]
  | .decl tok scope name (some init) =>
    tok.dumpLine depth ("declaration: " ++ scope.text ++ " int") :: name.dumpLine (depth + 1) ::
      init.dumpLines (depth + 1)
  | .print tok value => tok.dumpLine depth "print:" :: value.dumpLines (depth + 1)
  | .ret tok none => [tok.dumpLine depth "return:"]
  | .ret tok (some value) => tok.dumpLine depth "return:" :: value.dumpLines (depth + 1)
  | .late inner => inner.dumpLines depth

def dumpLinesAll (depth : Int) : List Node → List DumpLine
  | [] => []
  | node :: rest => node.dumpLines depth ++ dumpLinesAll depth rest

end

def Node.dump (depth : Int) (n : Node) : Text := (n.dumpLines depth).flatMap DumpLine.text

def Program.dump (p : Program) : Text := p.node.dump 0

end IntLang
