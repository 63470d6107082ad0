import IntLang.Charset.Digit
import IntLang.Charset.Graphic
import IntLang.Charset.Letter
import IntLang.Charset.Mark
import IntLang.Charset.Sign

/-! The classes of codes that tokens are made of, and the codes that are shown as they are.
A negative code, a surrogate and a code above 0x10ffff are in none of them. The general categories
are those of Unicode 15.0.0. -/
namespace IntLang.Charset

/-- ASCII digits, of which integer literals are made. -/
def isDigit (code : Int) : Bool := decide (48 ≤ code) && decide (code ≤ 57)

def isWordStart (code : Int) : Bool :=
  code == 95 || code == 36 || letters.has code ||
    currencySigns.has code || connectors.has code || letterNumerals.has code

def isWordPart (code : Int) : Bool :=
  isWordStart code || decimalDigits.has code || nonspacingMarks.has code || spacingMarks.has code

/-- Of the blanks only the ASCII space is printable. -/
def isPrintable (code : Int) : Bool := code == 32 || graphicPoints.has code

end IntLang.Charset
