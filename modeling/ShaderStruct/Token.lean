import ShaderStruct.Text.Quoted

/-!
# Tokens

A token is a piece of source text with its kind and its place. Filters tell which tokens a
production accepts, and the three descriptions of a token are the ones that messages and listings
use.
-/

namespace ShaderStruct

/-- A place in a named text. Lines and columns count from one, the offset from zero, but a location
made by hand may hold any numbers. -/
structure Location where
  filename : String
  line : Int
  column : Int
  offset : Int
  deriving DecidableEq, Repr

def Location.text (l : Location) : String := s!"{l.filename}:{l.line}:{l.column}"

/-- The kinds of tokens, in the order in which the scanner tries them. -/
inductive TokenKind where
  | comment
  | keyword
  | decimalInt
  | identifier
  | punctuator
  | unknown
  deriving DecidableEq, Repr

/-- The name of a kind in messages. -/
def TokenKind.label : TokenKind → String
  | .comment => "Comment"
  | .keyword => "Keyword"
  | .decimalInt => "DecimalInt"
  | .identifier => "Identifier"
  | .punctuator => "Punctuator"
  | .unknown => "Unknown"

/-- The name of a kind in listings of tokens. -/
def TokenKind.tag : TokenKind → String
  | .comment => "COMMENT"
  | .keyword => "KEYWORD"
  | .decimalInt => "DECIMAL_INT"
  | .identifier => "IDENTIFIER"
  | .punctuator => "PUNCTUATOR"
  | .unknown => "UNKNOWN"

structure Token where
  kind : TokenKind
  text : String
  offset : Int
  line : Int
  column : Int
  filename : String
  deriving DecidableEq, Repr

namespace Token

def location (t : Token) : Location := ⟨t.filename, t.line, t.column, t.offset⟩

def endLocation (t : Token) : Location :=
  ⟨t.filename, t.line, t.column + t.text.length, t.offset + t.text.length⟩

/-- Whether the token has one of the kinds and one of the texts; an empty list accepts all. -/
def fits (t : Token) (kinds : List TokenKind) (texts : List String) : Bool :=
  (kinds.isEmpty || kinds.contains t.kind) && (texts.isEmpty || texts.contains t.text)

def entry (t : Token) : String :=
  s!"Token({t.kind.tag}, {Text.quoted t.text}, {t.line}:{t.column})"

end Token

/-- A token, or the end of the input, with the text quoted and escaped. -/
def describe : Option Token → String
  | none => "end of input"
  | some t => s!"{t.kind.label} {Text.quoted t.text}"

/-- A token, or the end of the input, with the text as it stands between double quotes. -/
def describePlain : Option Token → String
  | none => "end of input"
  | some t => s!"{t.kind.label} \"{t.text}\""

end ShaderStruct
