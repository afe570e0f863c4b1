import ShaderStruct.Text.Quoted

/-!
# Integers in decimal

Reading and writing of integers of any size, up to a limit on the number of digits that holds in
both directions. Reading counts the digits of the text, leading zeros included; writing counts
those of the value.
-/

namespace ShaderStruct

inductive NumeralError where
  | malformed (text : String)
  | tooLongToRead (digits : Nat)
  | tooLongToWrite
  deriving DecidableEq, Repr

namespace Decimal

def digitLimit : Nat := 4300

/-- The least magnitude that has too many digits to be written. -/
def writeBound : Nat := Nat.pow 10 digitLimit

def isWritable (n : Int) : Bool := n.natAbs < writeBound

def digits (n : Int) : String :=
  if n < 0 then "-" ++ n.natAbs.repr else n.natAbs.repr

def write (n : Int) : Except NumeralError String :=
  if isWritable n then .ok (digits n) else .error .tooLongToWrite

def isDigitOrUnderscore (c : Char) : Bool := (Text.digitValue? c).isSome || c == '_'

/-- Digits with underscores between them, each between two digits; `inside` tells whether a digit
stands just before. -/
def wellSpaced (inside : Bool) : List Char → Bool
  | [] => inside
  | c :: rest => if c == '_' then inside && wellSpaced false rest else wellSpaced true rest

def splitSign : List Char → Bool × List Char
  | '-' :: rest => (true, rest)
  | '+' :: rest => (false, rest)
  | text => (false, text)

/-- Reads an integer with white space around it, a sign, digits of any script and single
underscores between digits. The digits are judged before what follows them. -/
def read (text : String) : Except NumeralError Int :=
  let (negative, body) := splitSign (text.toList.dropWhile Text.isNumeralBlank)
  let run := body.takeWhile isDigitOrUnderscore
  let values := run.filterMap Text.digitValue?
  if !wellSpaced false run then .error (.malformed text)
  else if digitLimit < values.length then .error (.tooLongToRead values.length)
  else if !(body.dropWhile isDigitOrUnderscore).all Text.isNumeralBlank then
    .error (.malformed text)
  else
    let magnitude : Nat := values.foldl (10 * · + ·) 0
    .ok (if negative then -magnitude else magnitude)

def withoutSuffix (text : String) : String :=
  match text.toList.getLast? with
  | some 'i' | some 'u' => String.ofList text.toList.dropLast
  | _ => text

def readLiteral (text : String) : Except NumeralError Int := read (withoutSuffix text)

end Decimal

def NumeralError.shownLength : Nat := 200

def NumeralError.message : NumeralError → String
  | .malformed text =>
    "invalid literal for int() with base 10: " ++
      String.ofList ((Text.quoted text).toList.take shownLength)
  | .tooLongToRead digits =>
    s!"Exceeds the limit ({Decimal.digitLimit} digits) for integer string conversion: " ++
      s!"value has {digits} digits; use sys.set_int_max_str_digits() to increase the limit"
  | .tooLongToWrite =>
    s!"Exceeds the limit ({Decimal.digitLimit} digits) for integer string conversion; " ++
      "use sys.set_int_max_str_digits() to increase the limit"

end ShaderStruct
