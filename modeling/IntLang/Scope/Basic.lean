import IntLang.Text.Decimal

/-! Where a variable lives. -/
namespace IntLang

inductive Scope where
  | unknown
  | globalVar
  | localVar
  | other (code : Int)
  deriving DecidableEq, Repr

namespace Scope

def code : Scope → Int
  | .unknown => 0
  | .globalVar => 1
  | .localVar => 2
  | .other c => c

def ofCode (c : Int) : Scope :=
  if c = 0 then .unknown else if c = 1 then .globalVar else if c = 2 then .localVar else .other c

def text : Scope → Text
  | .unknown => "unknown"
  | .globalVar => "global"
  | .localVar => "local"
  | .other c => "Kind(" ++ Decimal.ofInt c ++ ")"

end Scope
end IntLang
