import ShaderStruct.Failure
import ShaderStruct.Scope
import ShaderStruct.Text.Lines

/-!
# Reading tokens

A production reads a list of tokens from the front. Its reading is a value and the tokens left, or
a failure and the tokens left when it arose. A context holds what stays fixed meanwhile: the
declarations in scope, and what it takes to point at a place in the source.
-/

namespace ShaderStruct

inductive Reading (α : Type) where
  | done (value : α) (rest : List Token)
  | failed (failure : Failure) (rest : List Token)

namespace Reading

variable {α β : Type}

def rest : Reading α → List Token
  | done _ rest | failed _ rest => rest

def andThen (r : Reading α) (next : α → List Token → Reading β) : Reading β :=
  match r with
  | done value rest => next value rest
  | failed failure rest => failed failure rest

def map (f : α → β) (r : Reading α) : Reading β := r.andThen fun value rest => done (f value) rest

theorem andThen_eq_done_iff {r : Reading α} {next : α → List Token → Reading β} {value : β}
    {rest : List Token} :
    r.andThen next = done value rest ↔
      ∃ first middle, r = done first middle ∧ next first middle = done value rest := by
  cases r <;> grind [andThen]

theorem map_eq_done_iff {r : Reading α} {f : α → β} {value : β} {rest : List Token} :
    r.map f = done value rest ↔ ∃ first, r = done first rest ∧ f first = value := by
  cases r <;> grind [map, andThen]

end Reading

structure Context where
  scope : Scope
  /-- The last of all tokens, behind which the input ends. -/
  last : Option Token
  lines : Array String

namespace Context

def ofTokens (scope : Scope) (source : String) (tokens : List Token) : Context where
  scope := scope
  last := tokens.getLast?
  lines := ((Text.lines source.toList).map String.ofList).toArray

/-- Where a token stands, or where the input ends; nowhere if there is no token at all. -/
def locate (ctx : Context) : Option Token → Option Location
  | some token => some token.location
  | none => ctx.last.map Token.endLocation

def sourceLine (ctx : Context) (token : Option Token) : Option String := do
  let location ← ctx.locate token
  if 0 < location.line then ctx.lines[(location.line - 1).toNat]? else none

def problemAt (ctx : Context) (problem : SyntaxProblem) (found : Option Token) : Failure :=
  .syntactic ⟨problem, found, ctx.locate found, ctx.sourceLine found⟩

def comes (kinds : List TokenKind) (texts : List String) : List Token → Bool
  | [] => false
  | token :: _ => token.fits kinds texts

def take (ctx : Context) (kinds : List TokenKind) (texts : List String) :
    List Token → Reading Token
  | [] => .failed (ctx.problemAt (.expected kinds texts) none) []
  | token :: rest =>
    if token.fits kinds texts then .done token rest
    else .failed (ctx.problemAt (.expected kinds texts) (some token)) (token :: rest)

/-- Only a token that fits is taken, and it alone. -/
theorem take_eq_done_iff {ctx : Context} {kinds : List TokenKind} {texts : List String}
    {tokens rest : List Token} {token : Token} :
    ctx.take kinds texts tokens = .done token rest ↔
      tokens = token :: rest ∧ token.fits kinds texts = true := by
  cases tokens with
  | nil => simp [take]
  | cons t ts =>
    simp only [take]
    split
    · next h =>
      simp only [Reading.done.injEq, List.cons.injEq]
      refine ⟨?_, And.left⟩
      rintro ⟨rfl, rfl⟩
      exact ⟨⟨rfl, rfl⟩, h⟩
    · next h =>
      simp only [reduceCtorEq, List.cons.injEq, false_iff]
      rintro ⟨⟨rfl, rfl⟩, hfits⟩
      exact h hfits

theorem length_lt_of_take {ctx : Context} {kinds : List TokenKind} {texts : List String}
    {tokens rest : List Token} {token : Token}
    (h : ctx.take kinds texts tokens = .done token rest) : rest.length < tokens.length := by
  rw [(take_eq_done_iff.1 h).1]
  exact Nat.lt_succ_self _

end Context

end ShaderStruct
