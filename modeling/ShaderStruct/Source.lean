import ShaderStruct.Grammar
import ShaderStruct.Scanner

/-!
# Source texts

A source text holds one declaration or several in a row, each of which may refer to those before
it. A parse of several keeps what was declared before it failed, for those who report on it.
-/

namespace ShaderStruct

structure Parse where
  /-- The number of tokens, unless the text has none at some place. -/
  tokenCount : Option Nat
  declared : List Declared
  /-- What is known after these declarations. -/
  scope : Scope
  failure : Option Failure

namespace Context

/-- Reads declarations as long as there are tokens; each is known to the next. -/
def readStructs (ctx : Context) (tokens : List Token) : Parse :=
  if tokens.isEmpty then ⟨none, [], ctx.scope, none⟩
  else
    match _ : ctx.readStruct tokens with
    | .failed failure _ => ⟨none, [], ctx.scope, some failure⟩
    | .done decl rest =>
      let later := { ctx with scope := ctx.scope.declare decl }.readStructs rest
      { later with declared := ⟨ctx.scope.nextStamp, decl⟩ :: later.declared }
termination_by tokens.length
decreasing_by exact length_lt_of_readStruct ‹_›

end Context

def parse (scope : Scope) (source filename : String) : Parse :=
  match tokenize source filename with
  | .error e => ⟨none, [], scope, some (.lexical e)⟩
  | .ok tokens =>
    { (Context.ofTokens scope source tokens).readStructs tokens with
      tokenCount := some tokens.length }

def parseStructs (scope : Scope) (source filename : String) :
    Except Failure (List Declared × Scope) :=
  let result := parse scope source filename
  match result.failure with
  | some failure => .error failure
  | none => .ok (result.declared, result.scope)

def parseStruct (scope : Scope) (source filename : String) : Except Failure Struct :=
  match tokenize source filename with
  | .error e => .error (.lexical e)
  | .ok tokens =>
    let ctx := Context.ofTokens scope source tokens
    match ctx.readStruct tokens with
    | .failed failure _ => .error failure
    | .done decl [] => .ok decl
    | .done _ (token :: _) => .error (ctx.problemAt .trailing (some token))

/-- Makes the declarations of texts known, one text after the other; a text's name is the given
stem with its number. -/
def loadTexts (scope : Scope) (stem : String) (texts : List String) : Except Failure Scope :=
  (texts.zipIdx).foldlM (fun scope (text, i) =>
    (parseStructs scope text (stem ++ i.repr)).map (·.2)) scope

end ShaderStruct
