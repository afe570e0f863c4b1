import ShaderStruct.Cursor
import ShaderStruct.Proofs.Grammar.Correspondence

/-!
# Tokens of the same words

Where tokens stand does not matter to what is read. Inputs of the same words are read alike in one
scope: the same declarations with the same targets, or failures that say the same, each at the place
of its own token.
-/

namespace ShaderStruct

/-! ### What a failure says -/

/-- The classes of failures. An unknown type and a letter that a shape does not take are syntax
errors of classes of their own. -/
inductive Failure.Sort where
  | general
  | lexical
  | syntactic
  | unknownType
  | invalidShorthand
  | layout
  | value
  | division
  | key
  deriving DecidableEq, Repr

def SyntaxProblem.sort : SyntaxProblem → Failure.Sort
  | unknownType .. => .unknownType
  | invalidShorthand .. => .invalidShorthand
  | _ => .syntactic

def Failure.sort : Failure → Failure.Sort
  | general _ => .general
  | lexical _ => .lexical
  | syntactic e => e.problem.sort
  | layout _ => .layout
  | numeral _ | unknownScalar _ => .value
  | divisionByZero => .division
  | missingName _ => .key

/-- What a failure says, wherever it arose: its class, the text without the place, and the hint. -/
structure Complaint where
  sort : Failure.Sort
  text : String
  hint : Option String
  deriving DecidableEq, Repr

def Failure.complaint (failure : Failure) : Complaint where
  sort := failure.sort
  text := (failure.diagnostic?.map (·.text)).getD failure.message
  hint := failure.diagnostic?.bind (·.hint)

theorem describe_eq_of_word_eq {t t' : Token} (h : t.word = t'.word) :
    describe (some t) = describe (some t') := by
  obtain ⟨hkind, htext⟩ := Prod.mk.inj h
  rw [describe, describe, hkind, htext]

theorem describePlain_eq_of_word_eq {t t' : Token} (h : t.word = t'.word) :
    describePlain (some t) = describePlain (some t') := by
  obtain ⟨hkind, htext⟩ := Prod.mk.inj h
  rw [describePlain, describePlain, hkind, htext]

theorem expectation_eq_of_word_eq {t t' : Token} (h : t.word = t'.word) (kinds : List TokenKind)
    (texts : List String) :
    expectation kinds texts (some t) = expectation kinds texts (some t') := by
  simp only [expectation, describePlain_eq_of_word_eq h]

theorem SyntaxProblem.text_eq_of_word_eq {t t' : Token} (h : t.word = t'.word)
    (problem : SyntaxProblem) : problem.text (some t) = problem.text (some t') := by
  have hfound := describe_eq_of_word_eq h
  cases problem with
  | expected kinds texts => exact expectation_eq_of_word_eq h kinds texts
  | notAType => exact congrArg (fun found => s!"expected type specifier but found {found}") hfound
  | trailing => exact congrArg (fun found => s!"unexpected {found} after struct declaration") hfound
  | unknownType name similar => rfl
  | invalidShorthand name allowed => rfl
  | stated text hint kinds texts => rfl

/-- A problem at a token says the same wherever the token stands. -/
theorem complaint_problemAt_eq {t t' : Token} (h : t.word = t'.word) (ctx ctx' : Context)
    (problem : SyntaxProblem) : (ctx.problemAt problem (some t)).complaint =
      (ctx'.problemAt problem (some t')).complaint := by
  have htext := problem.text_eq_of_word_eq h
  change Complaint.mk problem.sort _ problem.hint = Complaint.mk problem.sort _ problem.hint
  exact congrArg (Complaint.mk problem.sort · problem.hint) htext

namespace Grammar

/-- Tokens of one word stand for each other, and failures that say the same do. -/
def sameWords : Likeness where
  toCongruence := .equal
  token t t' := t.word = t'.word
  failure e e' := e.complaint = e'.complaint
  word_eq := id
  numeral _ := rfl

theorem failure_sameWords (ctx ctx' : Context) (problem : SyntaxProblem)
    {found found' : Option Token} (h : Option.Rel sameWords.token found found') :
    sameWords.failure (ctx.problemAt problem found) (ctx'.problemAt problem found') := by
  cases h with
  | none => rfl
  | some hword => exact complaint_problemAt_eq hword ctx ctx' problem

theorem like_sameWords {ctx ctx' : Context} (h : ctx.scope.known = ctx'.scope.known) :
    ctx.Like sameWords ctx' :=
  Context.like_of_known rfl h fun problem _ _ => failure_sameWords ctx ctx' problem

theorem forall₂_sameWords_iff {tokens tokens' : List Token} :
    List.Forall₂ sameWords.token tokens tokens' ↔
      tokens.map Token.word = tokens'.map Token.word := by
  rw [← List.forall₂_eq_eq_eq, List.forall₂_map_left_iff, List.forall₂_map_right_iff]
  rfl

/-- **Rows of the same words are read alike.** -/
theorem readStructs_sameWords (ctx ctx' : Context) {tokens tokens' : List Token}
    (hscope : ctx.scope = ctx'.scope) (h : tokens.map Token.word = tokens'.map Token.word) :
    (ctx.readStructs tokens).declared = (ctx'.readStructs tokens').declared ∧
      (ctx.readStructs tokens).scope = (ctx'.readStructs tokens').scope ∧
      (ctx.readStructs tokens).failure.map Failure.complaint =
        (ctx'.readStructs tokens').failure.map Failure.complaint := by
  have hctx : ctx.StayLike sameWords Eq Eq ctx' :=
    Context.stayLike_of_equal rfl fun problem _ _ => failure_sameWords ctx ctx' problem
  obtain ⟨hdeclared, hafter, hfailure⟩ := hctx.readStructs hscope (forall₂_sameWords_iff.2 h)
  rw [List.forall₂_eq_eq_eq] at hdeclared
  refine ⟨hdeclared, hafter, ?_⟩
  change Option.Rel _ (ctx.readStructs tokens).failure (ctx'.readStructs tokens').failure
    at hfailure
  generalize (ctx.readStructs tokens).failure = failure,
    (ctx'.readStructs tokens').failure = failure' at hfailure ⊢
  cases hfailure with
  | none => rfl
  | some hsame => exact congrArg some hsame

/-! ### Productions at a cursor -/

/-- Of the tokens, a production sees only the words: at the same position of tokens of the same
words, in scopes that know the same, it returns the same or fails saying the same, and comes to the
same position. -/
def Blind {α : Type} (production : Context → List Token → Reading α) : Prop :=
  ∀ c c' : Cursor, c.context.scope.known = c'.context.scope.known →
    c.tokens.map Token.word = c'.tokens.map Token.word → c.position = c'.position →
      Corresponding (fun e e' => e.complaint = e'.complaint) Eq
        (c.run production).1 (c'.run production).1 ∧
      (c.run production).2.position = (c'.run production).2.position

/-- A production that treats tokens of the same words alike sees only the words. -/
theorem blind_of_like {α : Type} {production : Context → List Token → Reading α}
    {V : α → α → Prop} (hV : ∀ {a b}, V a b → a = b)
    (h : ∀ {ctx ctx' tokens tokens'}, ctx.Like sameWords ctx' →
      List.Forall₂ sameWords.token tokens tokens' →
        (production ctx tokens).Like sameWords V (production ctx' tokens')) :
    Blind production := by
  intro c c' hknown hwords hposition
  have hrest : List.Forall₂ sameWords.token c.rest c'.rest := by
    rw [forall₂_sameWords_iff, Cursor.rest, Cursor.rest, List.map_drop, List.map_drop, hwords,
      hposition]
  have hread := h (like_sameWords hknown) hrest
  rw [Cursor.run, Cursor.run]
  generalize production c.context c.rest = reading, production c'.context c'.rest = reading'
    at hread ⊢
  have hleave : ∀ {rest rest' : List Token}, List.Forall₂ sameWords.token rest rest' →
      (c.leave rest).position = (c'.leave rest').position := by
    intro rest rest' hleft
    rw [Cursor.leave, Cursor.leave, hrest.length_eq, hleft.length_eq, hposition]
  cases hread with
  | done hvalue hleft => exact ⟨.ok (hV hvalue), hleave hleft⟩
  | failed hfailure hleft => exact ⟨.error hfailure, hleave hleft⟩

theorem blind_readInt : Blind Context.readInt :=
  blind_of_like id fun hctx => hctx.readInt

theorem blind_readAttributes : Blind Context.readAttributes := by
  refine blind_of_like (fun h => ?_) fun hctx => hctx.readAttributes
  rwa [← List.forall₂_eq_eq_eq]

theorem blind_readType : Blind Context.readType :=
  blind_of_like id fun hctx => hctx.readType

theorem blind_readTemplate : Blind Context.readTemplate :=
  blind_of_like id fun hctx => hctx.readTemplate fun _ => hctx.readType

theorem blind_readArray : Blind Context.readArray :=
  blind_of_like id fun hctx => hctx.readArray fun _ => hctx.readType

theorem blind_readMember : Blind Context.readMember := by
  refine blind_of_like (fun h => ?_) fun hctx => hctx.readMember
  cases h with
  | none => rfl
  | some hmember => exact congrArg some hmember.eq

theorem blind_readStruct : Blind Context.readStruct :=
  blind_of_like Congruence.Struct.eq fun hctx => hctx.readStruct

end Grammar

end ShaderStruct
