import IntLang.Charset.Class
import IntLang.Text.Basic

/-! Quoted texts and characters. What is not printable is written as an escape, so a quoted text
is one line of printable characters. -/
namespace IntLang.Quoted

def doubleQuote : Char := '\x22'
def singleQuote : Char := '\x27'
def backslash : Char := '\x5c'

/-- The lowest hexadecimal digits of a number, as many as asked for. -/
def hex : Nat → Nat → List Char
  | 0, _ => []
  | width + 1, n => hex width (n / 16) ++ [Nat.digitChar (n % 16)]

def escape (letter : Char) (width n : Nat) : Text := (backslash :: letter :: hex width n).map .char

/-- The letter of a control character that has an escape of its own. -/
def shortEscape? : Char → Option Char
  | '\x07' => some 'a'
  | '\x08' => some 'b'
  | '\x0c' => some 'f'
  | '\n' => some 'n'
  | '\r' => some 'r'
  | '\t' => some 't'
  | '\x0b' => some 'v'
  | _ => none

def charBody (quote c : Char) : Text :=
  if c = quote ∨ c = backslash then [.char backslash, .char c]
  else if Charset.isPrintable c.toNat then [.char c]
  else match shortEscape? c with
    | some letter => [.char backslash, .char letter]
    | none =>
      if c.toNat < 0x80 then escape 'x' 2 c.toNat
      else if c.toNat < 0x10000 then escape 'u' 4 c.toNat
      else escape 'U' 8 c.toNat

def body (quote : Char) : Glyph → Text
  | .char c => charBody quote c
  | .stray b => escape 'x' 2 b.toNat

/-- A text between double quotes. -/
def text (t : Text) : Text :=
  .char doubleQuote :: t.flatMap (body doubleQuote) ++ [.char doubleQuote]

/-- A code between single quotes; a code that is no scalar value as the replacement character. -/
def code (c : Int) : Text :=
  .char singleQuote :: body singleQuote (Glyph.ofCode c) ++ [.char singleQuote]

end IntLang.Quoted
