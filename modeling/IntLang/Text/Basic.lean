/-! Texts that need not be well-formed UTF-8. Names, lexemes and messages may hold any bytes,
so a text is a list of characters and of bytes that belong to no character. -/
namespace IntLang

/-- A character, or one byte that is part of no well-formed UTF-8 sequence. -/
inductive Glyph where
  | char (c : Char)
  | stray (byte : UInt8)
  deriving DecidableEq, Repr

abbrev Text := List Glyph

namespace Glyph

/-- What stands for a code that is no Unicode scalar value. -/
def replacement : Char := '�'

/-- The glyph of a code; the replacement character if the code is no scalar value. -/
def ofCode (code : Int) : Glyph :=
  if 0 ≤ code ∧ code.toNat.isValidChar then .char (Char.ofNat code.toNat) else .char replacement

/-- The code a reader sees: a stray byte reads as the replacement character. -/
def code : Glyph → Int
  | .char c => c.toNat
  | .stray _ => replacement.toNat

end Glyph

namespace Text

def ofString (s : String) : Text := s.toList.map .char

instance : Coe String Text := ⟨ofString⟩

/-- Texts one after another with a separator between them. -/
def join (separator : Text) (parts : List Text) : Text := separator.intercalate parts

/-- The parts of a text between the separators; never empty. -/
def split (separator : Glyph) (t : Text) : List Text :=
  t.foldr (fun g parts => if g = separator then [] :: parts else
    match parts with
    | [] => [[g]]
    | p :: rest => (g :: p) :: rest) [[]]

end Text
end IntLang
