import ShaderStruct.Grammar

/-!
# Cursors

A cursor is a position in a list of tokens at which productions can be run one after the other. A
production that succeeds leaves the cursor behind what it has read, one that fails leaves it where
it failed. A cursor may stand beyond the last token, and then stays where it is.
-/

namespace ShaderStruct

structure Cursor where
  context : Context
  tokens : List Token
  position : Nat

namespace Cursor

def ofTokens (scope : Scope) (source : String) (tokens : List Token) (position : Nat) : Cursor :=
  ⟨.ofTokens scope source tokens, tokens, position⟩

def rest (c : Cursor) : List Token := c.tokens.drop c.position

def atEnd (c : Cursor) : Bool := c.tokens.length ≤ c.position

def current (c : Cursor) : Option Token := c.rest.head?

def peek (c : Cursor) (kinds : List TokenKind) (texts : List String) : Option Token :=
  c.current.filter (·.fits kinds texts)

/-- Moves forward to where a list of tokens is left. -/
def leave (c : Cursor) (rest : List Token) : Cursor :=
  { c with position := c.position + (c.rest.length - rest.length) }

def run {α : Type} (c : Cursor) (production : Context → List Token → Reading α) :
    Except Failure α × Cursor :=
  match production c.context c.rest with
  | .done value rest => (.ok value, c.leave rest)
  | .failed failure rest => (.error failure, c.leave rest)

end Cursor

end ShaderStruct
