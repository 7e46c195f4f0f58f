import ScriptTypings.Text.Blank
import ScriptTypings.Text.WordTable

/-!
# Word characters and digits

Membership in the classes of `Text.WordTable`, decided directly for ASCII.
-/

namespace ScriptTypings.Text

def isAsciiLetter (c : Char) : Bool :=
  ('a' ≤ c && c ≤ 'z') || ('A' ≤ c && c ≤ 'Z')

def isAsciiDigit (c : Char) : Bool :=
  '0' ≤ c && c ≤ '9'

/-- Letters, numbers and the low line. -/
def isWord (c : Char) : Bool :=
  if c.toNat < 128 then isAsciiLetter c || isAsciiDigit c || c = '_'
  else inRanges wordRanges c.toNat

/-- Decimal digits of every script. -/
def isDecimal (c : Char) : Bool :=
  if c.toNat < 128 then isAsciiDigit c else inRanges decimalRanges c.toNat

/-- Decimal digits, and the signs that stand for one digit, such as a superscript two. -/
def isDigitSign (c : Char) : Bool :=
  isDecimal c || inRanges digitSignRanges c.toNat

end ScriptTypings.Text
