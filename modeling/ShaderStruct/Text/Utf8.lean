/-!
# Strict decoding of UTF-8

Bytes become characters only if they are the one shortest form of each. The first fault is told
with the bytes it spans: those of a character that was begun, up to where it can no longer be one.
-/

namespace ShaderStruct.Utf8

inductive Fault where
  | invalidStart
  | invalidContinuation
  | unexpectedEnd
  deriving DecidableEq, Repr

structure DecodingError where
  byte : UInt8
  position : Nat
  count : Nat
  fault : Fault
  deriving DecidableEq, Repr

def isContinuation (byte : UInt8) : Bool := 0x80 ≤ byte && byte < 0xC0

/-- Whether a second byte fits the first byte of a character of three or four bytes: some would
make a longer form than needed, a surrogate, or a number beyond the last character. -/
def isSecond (first second : UInt8) : Bool :=
  isContinuation second &&
    !(first == 0xE0 && second < 0xA0) && !(first == 0xED && 0xA0 ≤ second) &&
    !(first == 0xF0 && second < 0x90) && !(first == 0xF4 && 0x90 ≤ second)

/-- The low six bits of a byte behind those read before. -/
def extend (high : Nat) (byte : UInt8) : Nat := high * 64 + byte.toNat % 64

def decodeFrom (position : Nat) : List UInt8 → Except DecodingError (List Char)
  | [] => .ok []
  | a :: rest =>
    let fail count fault : Except DecodingError (List Char) :=
      .error ⟨a, position, count, fault⟩
    let value := a.toNat
    if a < 0x80 then
      (decodeFrom (position + 1) rest).map (Char.ofNat value :: ·)
    else if a < 0xC2 then fail 1 .invalidStart
    else if a < 0xE0 then
      match rest with
      | [] => fail 1 .unexpectedEnd
      | b :: rest =>
        if !isContinuation b then fail 1 .invalidContinuation
        else (decodeFrom (position + 2) rest).map (Char.ofNat (extend (value % 32) b) :: ·)
    else if a < 0xF0 then
      match rest with
      | [] => fail 1 .unexpectedEnd
      | [b] => if isSecond a b then fail 2 .unexpectedEnd else fail 1 .invalidContinuation
      | b :: c :: rest =>
        if !isSecond a b then fail 1 .invalidContinuation
        else if !isContinuation c then fail 2 .invalidContinuation
        else (decodeFrom (position + 3) rest).map
          (Char.ofNat (extend (extend (value % 16) b) c) :: ·)
    else if a < 0xF5 then
      match rest with
      | [] => fail 1 .unexpectedEnd
      | [b] => if isSecond a b then fail 2 .unexpectedEnd else fail 1 .invalidContinuation
      | [b, c] =>
        if !isSecond a b then fail 1 .invalidContinuation
        else if isContinuation c then fail 3 .unexpectedEnd
        else fail 2 .invalidContinuation
      | b :: c :: d :: rest =>
        if !isSecond a b then fail 1 .invalidContinuation
        else if !isContinuation c then fail 2 .invalidContinuation
        else if !isContinuation d then fail 3 .invalidContinuation
        else (decodeFrom (position + 4) rest).map
          (Char.ofNat (extend (extend (extend (value % 8) b) c) d) :: ·)
    else fail 1 .invalidStart

def decode (bytes : List UInt8) : Except DecodingError (List Char) := decodeFrom 0 bytes

def Fault.text : Fault → String
  | .invalidStart => "invalid start byte"
  | .invalidContinuation => "invalid continuation byte"
  | .unexpectedEnd => "unexpected end of data"

def DecodingError.message (e : DecodingError) : String :=
  if e.count == 1 then
    let digits := Nat.toDigits 16 e.byte.toNat
    let shown := String.ofList (List.replicate (2 - digits.length) '0' ++ digits)
    s!"'utf-8' codec can't decode byte 0x{shown} in position {e.position}: {e.fault.text}"
  else
    s!"'utf-8' codec can't decode bytes in position {e.position}-{e.position + e.count - 1}: " ++
      e.fault.text

end ShaderStruct.Utf8
