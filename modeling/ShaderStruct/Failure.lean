import ShaderStruct.Token
import ShaderStruct.Tree.Canonical

/-!
# Failures

All that can go wrong, as causes: a scan that finds no token, a syntax error at a token, a struct
without a layout, an integer that cannot be read or written, and a few misuses. A cause determines
its message; scans, syntax errors and layout problems are told as diagnostics, with a location, the
source line with a caret below, and a hint where there is one.
-/

namespace ShaderStruct

structure Diagnostic where
  text : String
  location : Option Location
  hint : Option String
  sourceLine : Option String
  deriving DecidableEq, Repr

namespace Diagnostic

def header (d : Diagnostic) : String :=
  match d.location with
  | some location => location.text ++ ": error: " ++ d.text
  | none => "error: " ++ d.text

def caret (column : Int) : List String :=
  if 0 < column then [String.ofList (List.replicate (column.toNat + 3) ' ') ++ "^"] else []

def excerpt (d : Diagnostic) : List String :=
  match d.sourceLine, d.location with
  | some line, some location => ("    " ++ line) :: caret location.column
  | _, _ => []

def hintLines (d : Diagnostic) : List String :=
  match d.hint with
  | some hint => if hint.isEmpty then [] else ["hint: " ++ hint]
  | none => []

def message (d : Diagnostic) : String :=
  "\n".intercalate (d.header :: d.excerpt ++ d.hintLines)

end Diagnostic

structure LexicalError where
  offset : Int
  remaining : String
  location : Option Location
  sourceLine : Option String
  deriving DecidableEq, Repr

def LexicalError.diagnostic (e : LexicalError) : Diagnostic where
  text := s!"unrecognized token at offset {e.offset}: {Text.quoted e.remaining}"
  location := e.location
  hint := none
  sourceLine := e.sourceLine

/-! ### Syntax errors -/

inductive SyntaxProblem where
  /-- A token of one of the kinds and texts had to come. -/
  | expected (kinds : List TokenKind) (texts : List String)
  /-- A keyword that names no type stands in the place of one. -/
  | notAType
  /-- Something follows the only declaration. -/
  | trailing
  | unknownType (name : String) (similar : List String)
  /-- The letter behind a vector or matrix name is none of those allowed. -/
  | invalidShorthand (name : String) (allowed : String)
  /-- A problem in words of the caller's choice. -/
  | stated (text : String) (hint : Option String) (kinds : List TokenKind) (texts : List String)
  deriving DecidableEq, Repr

structure SyntaxError where
  problem : SyntaxProblem
  /-- The offending token, or none at the end of the input. -/
  found : Option Token
  location : Option Location
  sourceLine : Option String
  deriving DecidableEq, Repr

def expectation (kinds : List TokenKind) (texts : List String) (found : Option Token) : String :=
  let kindNames := if kinds.isEmpty then "token" else ", ".intercalate (kinds.map (·.label))
  let textNames :=
    if texts.isEmpty then "" else " " ++ ", ".intercalate (texts.map ("\"" ++ · ++ "\""))
  s!"expected {kindNames}{textNames} but found {describePlain found}"

namespace SyntaxProblem

def text (found : Option Token) : SyntaxProblem → String
  | expected kinds texts => expectation kinds texts found
  | notAType => s!"expected type specifier but found {describe found}"
  | trailing => s!"unexpected {describe found} after struct declaration"
  | unknownType name _ => s!"unknown type '{name}' in type specifier"
  | invalidShorthand name _ => s!"invalid shorthand type specifier '{name}'"
  | stated text _ _ _ => text

def suggestionLimit : Nat := 3

def hint : SyntaxProblem → Option String
  | unknownType _ [] => some "supply the struct as a known type before referencing it"
  | unknownType _ similar =>
    let names := (similar.take suggestionLimit).map ("'" ++ · ++ "'")
    some ("did you mean " ++ ", ".intercalate names ++ "?")
  | invalidShorthand _ allowed =>
    some ("shorthand suffix must be one of: " ++
      ", ".intercalate (allowed.toList.map (String.singleton ·)))
  | stated _ hint _ _ => hint
  | _ => none

def expectedKinds : SyntaxProblem → List TokenKind
  | expected kinds _ | stated _ _ kinds _ => kinds
  | _ => []

def expectedTexts : SyntaxProblem → List String
  | expected _ texts | stated _ _ _ texts => texts
  | _ => []

end SyntaxProblem

/-- A syntax error in the caller's words; without words it tells what was expected. -/
def SyntaxProblem.ofText (text hint : Option String) (kinds : List TokenKind)
    (texts : List String) (found : Option Token) : SyntaxProblem :=
  .stated (text.getD (expectation kinds texts found)) hint kinds texts

def SyntaxError.ofProblem (problem : SyntaxProblem) (found : Option Token)
    (location : Option Location) (sourceLine : Option String) : SyntaxError :=
  ⟨problem, found, location.or (found.map Token.location), sourceLine⟩

def SyntaxError.diagnostic (e : SyntaxError) : Diagnostic where
  text := e.problem.text e.found
  location := e.location
  hint := e.problem.hint
  sourceLine := e.sourceLine

/-! ### Layout problems -/

inductive LayoutProblem where
  | componentNotScalar (owner : Node)
  | noElements (array : Node)
  | runtimeElement (array : Node)
  | runtimeReference (target : String)
  | notAType (node : Node)
  | alignNotPowerOfTwo (value : Int) (member : String)
  | sizeOfRuntime (member : String)
  | sizeTooSmall (value natural : Int) (member : String)
  | runtimeNotLast (member struct : String)
  | noMembers (struct : String)
  /-- A problem in words of the caller's choice. -/
  | stated (diagnostic : Diagnostic)

namespace LayoutProblem

def text : LayoutProblem → String
  | componentNotScalar owner => s!"'{owner.render}' must have a scalar component type"
  | noElements array => s!"'{array.render}' must have at least one element"
  | runtimeElement array => s!"'{array.render}' has a runtime-sized element type"
  | runtimeReference target =>
    s!"struct '{target}' contains a runtime-sized array and cannot be used as a member type"
  | notAType node => s!"no layout for type {node.sortName}"
  | alignNotPowerOfTwo value member =>
    s!"@align({Decimal.digits value}) on member '{member}' is not a power of two"
  | sizeOfRuntime member => s!"@size cannot be applied to runtime-sized member '{member}'"
  | sizeTooSmall value natural member =>
    s!"@size({Decimal.digits value}) on member '{member}' is smaller than its type size " ++
      Decimal.digits natural
  | runtimeNotLast member struct =>
    s!"runtime-sized member '{member}' must be the last member of struct '{struct}'"
  | noMembers struct => s!"struct '{struct}' has no members"
  | stated diagnostic => diagnostic.text

def isWritable : LayoutProblem → Bool
  | componentNotScalar node | noElements node | runtimeElement node => node.isWritable
  | alignNotPowerOfTwo value _ => Decimal.isWritable value
  | sizeTooSmall value natural _ => Decimal.isWritable value && Decimal.isWritable natural
  | _ => true

def diagnostic : LayoutProblem → Diagnostic
  | stated diagnostic => diagnostic
  | problem => ⟨problem.text, none, none, none⟩

end LayoutProblem

/-! ### Any failure -/

inductive Failure where
  | general (diagnostic : Diagnostic)
  | lexical (error : LexicalError)
  | syntactic (error : SyntaxError)
  | layout (problem : LayoutProblem)
  | numeral (error : NumeralError)
  | divisionByZero
  | missingName (name : String)
  | unknownScalar (name : String)

namespace Failure

/-- The diagnostic of a failure that concerns the source or what it declares. -/
def diagnostic? : Failure → Option Diagnostic
  | general diagnostic => some diagnostic
  | lexical error => some error.diagnostic
  | syntactic error => some error.diagnostic
  | layout problem => some problem.diagnostic
  | _ => none

def message : Failure → String
  | general diagnostic => diagnostic.message
  | lexical error => error.diagnostic.message
  | syntactic error => error.diagnostic.message
  | layout problem => problem.diagnostic.message
  | numeral error => error.message
  | divisionByZero => "integer division or modulo by zero"
  | missingName name => Text.quoted name
  | unknownScalar name => s!"{Text.quoted name} is not a valid ScalarKind"

end Failure

end ShaderStruct
