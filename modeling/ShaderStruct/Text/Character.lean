import ShaderStruct.Text.DigitTable
import ShaderStruct.Text.UnprintableTable
import ShaderStruct.Text.WordTable

/-!
# Classes of characters

White space separates tokens, a word character ends the hope for a keyword, an unprintable
character is shown by its number, and a digit has a value. Each class is written out for ASCII and
taken from a table beyond it, so that facts about source text in ASCII never look into a table.
-/

namespace ShaderStruct.Text

def covers (ranges : List (Nat × Nat)) (code : Nat) : Bool :=
  ranges.any fun (first, last) => first ≤ code && code ≤ last

def blankRanges : List (Nat × Nat) := [
    (0x09, 0x0D), (0x1C, 0x20), (0x85, 0x85), (0xA0, 0xA0), (0x1680, 0x1680), (0x2000, 0x200A),
    (0x2028, 0x2029), (0x202F, 0x202F), (0x205F, 0x205F), (0x3000, 0x3000)]

/-- White space, the four information separators among it. -/
def isBlank (c : Char) : Bool := covers blankRanges c.toNat

def isAsciiLetter (c : Char) : Bool :=
  ('a' ≤ c && c ≤ 'z') || ('A' ≤ c && c ≤ 'Z')

def isAsciiDigit (c : Char) : Bool := '0' ≤ c && c ≤ '9'

/-- A letter, a number or an underscore. -/
def isWord (c : Char) : Bool :=
  isAsciiLetter c || isAsciiDigit c || c == '_' || covers wordRanges c.toNat

def isPrintable (c : Char) : Bool :=
  0x20 ≤ c.toNat && c.toNat != 0x7F && !covers unprintableRanges c.toNat

def digitValue? (c : Char) : Option Nat :=
  if isAsciiDigit c then some (c.toNat - '0'.toNat)
  else (digitZeros.find? fun least => least ≤ c.toNat && c.toNat < least + 10).map (c.toNat - ·)

/-- The white space that may stand around a numeral: the information separators may not. -/
def isNumeralBlank (c : Char) : Bool :=
  isBlank c && !(0x1C ≤ c.toNat && c.toNat ≤ 0x1F)

end ShaderStruct.Text
