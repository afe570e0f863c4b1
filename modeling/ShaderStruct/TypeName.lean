import ShaderStruct.Tree

/-!
# Type names

The spellings of types: scalars, the array, and the shapes, which are vectors and matrices. A
shape's name may end in a letter that stands for the scalar of its components. The letter is read
before it is judged, since a wrong one is worth an error of its own.
-/

namespace ShaderStruct

inductive Shape where
  | vector (size : Nat)
  | matrix (columns rows : Nat)
  deriving DecidableEq, Repr

inductive TypeName where
  | scalar (kind : Scalar)
  | array
  | shaped (shape : Shape) (letter : Option Char)
  deriving DecidableEq, Repr

def Scalar.ofLetter? : Char → Option Scalar
  | 'h' => some .f16
  | 'f' => some .f32
  | 'i' => some .i32
  | 'u' => some .u32
  | _ => none

namespace Shape

def letters : Shape → List Char
  | vector _ => ['h', 'f', 'i', 'u']
  | matrix _ _ => ['h', 'f']

def scalar? (shape : Shape) (letter : Char) : Option Scalar :=
  if shape.letters.contains letter then Scalar.ofLetter? letter else none

def ofElement (element : Node) : Shape → Node
  | vector size => .vector element size
  | matrix columns rows => .matrix element columns rows

def extent? : Char → Option Nat
  | '2' => some 2
  | '3' => some 3
  | '4' => some 4
  | _ => none

/-- What may follow a shape: nothing, or one small letter. -/
def ending? : List Char → Option (Option Char)
  | [] => some none
  | [c] => if 'a' ≤ c && c ≤ 'z' then some (some c) else none
  | _ => none

def ofName? : List Char → Option (Shape × Option Char)
  | 'v' :: 'e' :: 'c' :: n :: rest => do
    let size ← extent? n
    let letter ← ending? rest
    some (vector size, letter)
  | 'm' :: 'a' :: 't' :: c :: 'x' :: r :: rest => do
    let columns ← extent? c
    let rows ← extent? r
    let letter ← ending? rest
    some (matrix columns rows, letter)
  | _ => none

end Shape

def TypeName.ofText? (text : String) : Option TypeName :=
  if text = "array" then some .array
  else
    match Scalar.ofName? text with
    | some kind => some (.scalar kind)
    | none => (Shape.ofName? text.toList).map fun (shape, letter) => .shaped shape letter

end ShaderStruct
