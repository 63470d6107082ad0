import IntLang.Text.Decimal
import IntLang.Text.Quoted

/-! Kinds of tokens. Each kind has a code: a named kind a small negative one, and the kind of a
single character the code of that character. -/
namespace IntLang

inductive Keyword where
  | globalWord
  | localWord
  | returnWord
  | printWord
  | intWord
  deriving DecidableEq, Repr

namespace Keyword

def all : List Keyword := [.globalWord, .localWord, .returnWord, .printWord, .intWord]

def spelling : Keyword → Text
  | .globalWord => "global"
  | .localWord => "local"
  | .returnWord => "return"
  | .printWord => "print"
  | .intWord => "int"

def code : Keyword → Int
  | .globalWord => -4
  | .localWord => -5
  | .returnWord => -6
  | .printWord => -7
  | .intWord => -8

/-- The keyword that is spelled so. -/
def ofSpelling? (t : Text) : Option Keyword := all.find? fun k => k.spelling = t

end Keyword

/-- What a token is. A code that no named kind has is the kind of that single character. -/
inductive Kind where
  | endOfFile
  | intLiteral
  | identifier
  | keyword (k : Keyword)
  | single (code : Int)
  deriving DecidableEq, Repr

namespace Kind

def code : Kind → Int
  | .endOfFile => -1
  | .intLiteral => -2
  | .identifier => -3
  | .keyword k => k.code
  | .single c => c

def ofCode (c : Int) : Kind :=
  if c = -1 then .endOfFile
  else if c = -2 then .intLiteral
  else if c = -3 then .identifier
  else match Keyword.all.find? fun k => k.code = c with
    | some k => .keyword k
    | none => .single c

/-- The kind of one character of the source. -/
def char (c : Char) : Kind := .single c.toNat

/-- A word is a keyword or else an identifier. -/
def ofWord (t : Text) : Kind :=
  match Keyword.ofSpelling? t with
  | some k => .keyword k
  | none => .identifier

def text : Kind → Text
  | .endOfFile => "EOF"
  | .intLiteral => "IntLiteral"
  | .identifier => "Identifier"
  | .keyword k => k.spelling
  | .single c => if 0 ≤ c then Quoted.code c else "Kind(" ++ Decimal.ofInt c ++ ")"

end Kind
end IntLang
