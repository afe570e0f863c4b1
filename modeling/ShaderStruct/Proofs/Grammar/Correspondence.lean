import Mathlib.Data.List.Forall2
import ShaderStruct.Proofs.Grammar.Sequence

/-!
# Corresponding readings

Productions decide on the words of tokens alone. So if the tokens of two inputs correspond one to
one, and corresponding tokens have the same word, then a production takes as many tokens from both,
and what it returns or how it fails corresponds as well. What it is for two tokens to correspond,
what for two failures and what for the declarations that two references lead to, is left open as
far as possible: tokens may differ in their places, failures in how they tell them, and scopes in
what they hold.
-/

namespace ShaderStruct

/-! ### Corresponding trees -/

/-- A relation of nodes that every way to build an attribute or a type preserves. -/
structure Congruence where
  node : Node → Node → Prop
  align : ∀ value, node (.align value) (.align value)
  size : ∀ value, node (.size value) (.size value)
  scalar : ∀ kind, node (.scalar kind) (.scalar kind)
  ofElement : ∀ (shape : Shape) {element element'}, node element element' →
    node (shape.ofElement element) (shape.ofElement element')
  fixedArray : ∀ (count : Int) {element element'}, node element element' →
    node (.fixedArray element count) (.fixedArray element' count)
  runtimeArray : ∀ {element element'}, node element element' →
    node (.runtimeArray element) (.runtimeArray element')

namespace Congruence

structure Member (C : Congruence) (m m' : ShaderStruct.Member) : Prop where
  name_eq : m.name = m'.name
  type : C.node m.type m'.type
  attributes : List.Forall₂ C.node m.attributes m'.attributes

structure Struct (C : Congruence) (decl decl' : ShaderStruct.Struct) : Prop where
  name_eq : decl.name = decl'.name
  members : List.Forall₂ C.Member decl.members decl'.members

def equal : Congruence where
  node := Eq
  align _ := rfl
  size _ := rfl
  scalar _ := rfl
  ofElement shape _ _ := congrArg shape.ofElement
  fixedArray count _ _ := congrArg (Node.fixedArray · count)
  runtimeArray := congrArg Node.runtimeArray

theorem Member.eq {m m' : ShaderStruct.Member} (h : equal.Member m m') : m = m' := by
  obtain ⟨hname, htype, hattributes⟩ := h
  have heq : m.attributes = m'.attributes := by
    rw [← List.forall₂_eq_eq_eq]
    exact hattributes
  cases m
  cases m'
  simp only at hname htype heq
  rw [hname, htype, heq]

theorem Struct.eq {decl decl' : ShaderStruct.Struct} (h : equal.Struct decl decl') :
    decl = decl' := by
  obtain ⟨hname, hmembers⟩ := h
  have heq : decl.members = decl'.members := by
    rw [← List.forall₂_eq_eq_eq]
    exact hmembers.imp fun _ _ => Member.eq
  cases decl
  cases decl'
  simp only at hname heq
  rw [hname, heq]

end Congruence

/-- When a token stands for another, when a failure does, and when a type or an attribute does. -/
structure Likeness extends Congruence where
  token : Token → Token → Prop
  failure : Failure → Failure → Prop
  word_eq : ∀ {t t'}, token t t' → t.word = t'.word
  numeral : ∀ e, failure (.numeral e) (.numeral e)

namespace Reading

variable {α β : Type}

/-- Two readings that both succeed or both fail, with what they return or how they fail, and with
what they leave, in correspondence. -/
inductive Like (L : Likeness) (V : α → α → Prop) : Reading α → Reading α → Prop where
  | done {value value' : α} {rest rest' : List Token} (hvalue : V value value')
    (hrest : List.Forall₂ L.token rest rest') : Like L V (.done value rest) (.done value' rest')
  | failed {failure failure' : Failure} {rest rest' : List Token}
    (hfailure : L.failure failure failure') (hrest : List.Forall₂ L.token rest rest') :
    Like L V (.failed failure rest) (.failed failure' rest')

variable {L : Likeness} {V : α → α → Prop} {W : β → β → Prop} {r r' : Reading α}

theorem Like.andThen {next next' : α → List Token → Reading β} (h : Like L V r r')
    (hnext : ∀ value value' rest rest', r = .done value rest → V value value' →
      List.Forall₂ L.token rest rest' → Like L W (next value rest) (next' value' rest')) :
    Like L W (r.andThen next) (r'.andThen next') := by
  cases h with
  | done hvalue hrest => exact hnext _ _ _ _ rfl hvalue hrest
  | failed hfailure hrest => exact .failed hfailure hrest

theorem Like.map {f f' : α → β} (h : Like L V r r')
    (hf : ∀ value value', V value value' → W (f value) (f' value')) :
    Like L W (r.map f) (r'.map f') :=
  h.andThen fun value value' _ _ _ hvalue hrest => .done (hf value value' hvalue) hrest

end Reading

/-- Two contexts that tell the same problems of corresponding tokens, and in which a name stands for
corresponding declarations. -/
structure Context.Like (L : Likeness) (ctx ctx' : Context) : Prop where
  problem : ∀ problem {found found' : Option Token}, Option.Rel L.token found found' →
    L.failure (ctx.problemAt problem found) (ctx'.problemAt problem found')
  named : ∀ {t t' : Token} {rest rest' : List Token}, t.kind = .identifier → L.token t t' →
    List.Forall₂ L.token rest rest' →
      (ctx.readNamed t rest).Like L L.node (ctx'.readNamed t' rest')

namespace Likeness

variable {L : Likeness} {t t' : Token} {tokens tokens' : List Token}

theorem kind_eq (h : L.token t t') : t.kind = t'.kind := (Prod.mk.inj (L.word_eq h)).1

theorem text_eq (h : L.token t t') : t.text = t'.text := (Prod.mk.inj (L.word_eq h)).2

theorem fits_eq (h : L.token t t') (kinds : List TokenKind) (texts : List String) :
    t.fits kinds texts = t'.fits kinds texts := by
  rw [Token.fits, Token.fits, kind_eq h, text_eq h]

theorem comes_eq (h : List.Forall₂ L.token tokens tokens') (kinds : List TokenKind)
    (texts : List String) :
    Context.comes kinds texts tokens = Context.comes kinds texts tokens' := by
  cases h with
  | nil => rfl
  | cons ht _ => exact fits_eq ht kinds texts

theorem tail (h : List.Forall₂ L.token tokens tokens') :
    List.Forall₂ L.token tokens.tail tokens'.tail := by
  cases h with
  | nil => exact .nil
  | cons _ hrest => exact hrest

end Likeness

/-- Contexts that know the same are alike if they tell alike of corresponding tokens. -/
theorem Context.like_of_known {L : Likeness} {ctx ctx' : Context}
    (hequal : L.toCongruence = .equal) (hknown : ctx.scope.known = ctx'.scope.known)
    (hproblem : ∀ problem {found found'}, Option.Rel L.token found found' →
      L.failure (ctx.problemAt problem found) (ctx'.problemAt problem found')) :
    ctx.Like L ctx' where
  problem := hproblem
  named := by
    intro t t' rest rest' _ ht hrest
    rw [readNamed, readNamed, Scope.find?, Scope.find?, Scope.names, Scope.names, ← hknown,
      ← Likeness.text_eq ht, hequal]
    split
    · exact .done rfl hrest
    · exact .failed (hproblem _ (.some ht)) hrest

namespace Context.Like

open Likeness

variable {L : Likeness} {ctx ctx' : Context} (hctx : ctx.Like L ctx') {tokens tokens' : List Token}
include hctx

theorem problem_some {t t' : Token} (h : L.token t t') (p : SyntaxProblem) :
    L.failure (ctx.problemAt p (some t)) (ctx'.problemAt p (some t')) :=
  hctx.problem p (.some h)

theorem problem_none (p : SyntaxProblem) :
    L.failure (ctx.problemAt p none) (ctx'.problemAt p none) :=
  hctx.problem p .none

theorem take (h : List.Forall₂ L.token tokens tokens') (kinds : List TokenKind)
    (texts : List String) :
    (ctx.take kinds texts tokens).Like L L.token (ctx'.take kinds texts tokens') := by
  cases h with
  | nil => exact .failed (hctx.problem_none _) .nil
  | cons ht hrest =>
    rw [Context.take, Context.take, ← fits_eq ht]
    split
    · exact .done ht hrest
    · exact .failed (hctx.problem_some ht _) (.cons ht hrest)

theorem readInt (h : List.Forall₂ L.token tokens tokens') :
    (ctx.readInt tokens).Like L Eq (ctx'.readInt tokens') := by
  refine (hctx.take h _ _).andThen fun t t' rest rest' _ ht hrest => ?_
  rw [← text_eq ht]
  split
  · exact .done rfl hrest
  · exact .failed (L.numeral _) hrest

theorem readAttribute (h : List.Forall₂ L.token tokens tokens') :
    (ctx.readAttribute tokens).Like L L.node (ctx'.readAttribute tokens') := by
  refine (hctx.take h _ _).andThen fun _ _ _ _ _ _ h => ?_
  refine (hctx.take h _ _).andThen fun keyword keyword' _ _ _ hkeyword h => ?_
  refine (hctx.take h _ _).andThen fun _ _ _ _ _ _ h => ?_
  refine (hctx.readInt h).andThen fun value value' _ _ _ hvalue h => ?_
  refine (hctx.take h _ _).map fun _ _ _ => ?_
  rw [text_eq hkeyword, hvalue]
  split
  · exact L.align value'
  · exact L.size value'

theorem readAttributes (h : List.Forall₂ L.token tokens tokens') :
    (ctx.readAttributes tokens).Like L (List.Forall₂ L.node) (ctx'.readAttributes tokens') := by
  induction hlength : tokens.length using Nat.strong_induction_on generalizing tokens tokens' with
  | _ n ih =>
    rw [Grammar.Language.readAttributes_eq, Grammar.Language.readAttributes_eq, ← comes_eq h]
    split
    · refine (hctx.readAttribute h).andThen fun node node' rest rest' hread hnode hrest => ?_
      have hshorter := length_lt_of_readAttribute hread
      exact (ih _ (hlength ▸ hshorter) hrest rfl).map fun _ _ => .cons hnode
    · exact .done .nil h

/-! ### Types -/

section Brackets

variable (htype : ∀ {rest rest' : List Token}, rest.length < tokens.length →
  List.Forall₂ L.token rest rest' → (ctx.readType rest).Like L L.node (ctx'.readType rest'))
include htype

theorem readTemplate (h : List.Forall₂ L.token tokens tokens') :
    (ctx.readTemplate tokens).Like L L.node (ctx'.readTemplate tokens') := by
  rw [Grammar.Language.readTemplate_eq, Grammar.Language.readTemplate_eq]
  refine (hctx.take h _ _).andThen fun _ _ rest rest' hread _ h => ?_
  refine (htype (length_lt_of_take hread) h).andThen fun element element' _ _ _ helement h => ?_
  exact (hctx.take h _ _).map fun _ _ _ => helement

theorem readArray (h : List.Forall₂ L.token tokens tokens') :
    (ctx.readArray tokens).Like L L.node (ctx'.readArray tokens') := by
  rw [Grammar.Language.readArray_eq, Grammar.Language.readArray_eq]
  refine (hctx.take h _ _).andThen fun _ _ rest rest' hread _ h => ?_
  refine (htype (length_lt_of_take hread) h).andThen fun element element' _ _ _ helement h => ?_
  rw [← comes_eq h]
  split
  · refine (hctx.readInt (tail h)).andThen fun count count' _ _ _ hcount h => ?_
    subst hcount
    exact (hctx.take h _ _).map fun _ _ _ => L.fixedArray count helement
  · exact (hctx.take h _ _).map fun _ _ _ => L.runtimeArray helement

end Brackets

/-- Corresponding tokens spell corresponding types, or none for like reasons. -/
theorem readType (h : List.Forall₂ L.token tokens tokens') :
    (ctx.readType tokens).Like L L.node (ctx'.readType tokens') := by
  induction hlength : tokens.length using Nat.strong_induction_on generalizing tokens tokens' with
  | _ n ih =>
    cases h with
    | nil => exact .failed (hctx.problem_none _) .nil
    | @cons t t' rest rest' ht hrest =>
      have htype : ∀ {ts ts' : List Token}, ts.length < rest.length →
          List.Forall₂ L.token ts ts' → (ctx.readType ts).Like L L.node (ctx'.readType ts') := by
        intro ts ts' hshorter h
        exact ih _ (hlength ▸ Nat.lt_succ_of_lt hshorter) h rfl
      rw [Context.readType, Context.readType, ← kind_eq ht, ← text_eq ht]
      split
      · next hkind => exact hctx.named hkind ht hrest
      · split
        · exact hctx.readArray htype hrest
        · exact .done (L.scalar _) hrest
        · exact (hctx.readTemplate htype hrest).map fun _ _ => L.ofElement _
        · split
          · exact .done (L.ofElement _ (L.scalar _)) hrest
          · exact .failed (hctx.problem_some ht _) hrest
        · exact .failed (hctx.problem_some ht _) hrest
      · exact .failed (hctx.problem_some ht _) (.cons ht hrest)

/-! ### Members and structs -/

theorem readMember (h : List.Forall₂ L.token tokens tokens') :
    (ctx.readMember tokens).Like L (Option.Rel L.Member) (ctx'.readMember tokens') := by
  refine (hctx.readAttributes h).andThen fun attributes attributes' rest rest' _ hattributes h => ?_
  cases h with
  | nil => exact .done .none .nil
  | cons ht hrest =>
    simp only [← fits_eq ht]
    split
    · refine (hctx.take hrest _ _).andThen fun _ _ _ _ _ _ h => ?_
      exact (hctx.readType h).map fun _ _ htype => .some ⟨text_eq ht, htype, hattributes⟩
    · exact .done .none (.cons ht hrest)

theorem readMembers (h : List.Forall₂ L.token tokens tokens') :
    (ctx.readMembers tokens).Like L (List.Forall₂ L.Member) (ctx'.readMembers tokens') := by
  induction hlength : tokens.length using Nat.strong_induction_on generalizing tokens tokens' with
  | _ n ih =>
    rw [readMembers_eq, readMembers_eq]
    refine (hctx.readMember h).andThen fun member member' rest rest' hread hmember h => ?_
    cases hmember with
    | none => exact .done .nil h
    | some hmember =>
      have hshorter := length_lt_of_readMember hread
      simp only [← comes_eq h]
      split
      · refine (ih rest.tail.length ?_ (tail h) rfl).map fun _ _ => .cons hmember
        rw [List.length_tail]
        omega
      · exact .done (.cons hmember .nil) h

/-- **Declarations are read alike.** -/
theorem readStruct (h : List.Forall₂ L.token tokens tokens') :
    (ctx.readStruct tokens).Like L L.Struct (ctx'.readStruct tokens') := by
  have hskip : List.Forall₂ L.token (skipStruct tokens) (skipStruct tokens') := by
    rw [skipStruct, skipStruct, ← comes_eq h]
    split
    · exact tail h
    · exact h
  refine (hctx.take hskip _ _).andThen fun name name' _ _ _ hname h => ?_
  refine (hctx.take h _ _).andThen fun _ _ _ _ _ _ h => ?_
  refine (hctx.readMembers h).andThen fun members members' _ _ _ hmembers h => ?_
  exact (hctx.take h _ _).map fun _ _ _ => ⟨text_eq hname, hmembers⟩

end Context.Like

/-! ### Rows of declarations -/

/-- A relation of scopes that keeps two contexts alike and that corresponding declarations keep,
each with the stamp under which it becomes known. -/
structure Context.StayLike (L : Likeness) (scopes : Scope → Scope → Prop)
    (declared : Declared → Declared → Prop) (ctx ctx' : Context) : Prop where
  like : ∀ {scope scope'}, scopes scope scope' →
    { ctx with scope := scope }.Like L { ctx' with scope := scope' }
  declare : ∀ {scope scope' decl decl'}, scopes scope scope' → L.Struct decl decl' →
    scopes (scope.declare decl) (scope'.declare decl') ∧
      declared ⟨scope.nextStamp, decl⟩ ⟨scope'.nextStamp, decl'⟩

theorem Context.stayLike_of_equal {L : Likeness} {ctx ctx' : Context}
    (hequal : L.toCongruence = .equal)
    (hproblem : ∀ problem {found found'}, Option.Rel L.token found found' →
      L.failure (ctx.problemAt problem found) (ctx'.problemAt problem found')) :
    ctx.StayLike L Eq Eq ctx' where
  like := by
    rintro scope _ rfl
    exact Context.like_of_known hequal rfl hproblem
  declare := by
    rintro scope _ decl decl' rfl hdecl
    rw [hequal] at hdecl
    obtain rfl := hdecl.eq
    exact ⟨rfl, rfl⟩

structure Parse.Like (L : Likeness) (scopes : Scope → Scope → Prop)
    (declared : Declared → Declared → Prop) (p p' : Parse) : Prop where
  declared : List.Forall₂ declared p.declared p'.declared
  scope : scopes p.scope p'.scope
  failure : Option.Rel L.failure p.failure p'.failure

section Rows

variable {L : Likeness} {scopes : Scope → Scope → Prop} {declared : Declared → Declared → Prop}
  {scope scope' : Scope}

/-- **Rows are read alike.** -/
theorem Context.StayLike.readStructs {ctx ctx' : Context}
    (hctx : ctx.StayLike L scopes declared ctx') {tokens tokens' : List Token}
    (hscopes : scopes scope scope') (h : List.Forall₂ L.token tokens tokens') :
    ({ ctx with scope := scope }.readStructs tokens).Like L scopes declared
      ({ ctx' with scope := scope' }.readStructs tokens') := by
  induction hlength : tokens.length using Nat.strong_induction_on generalizing
    scope scope' tokens tokens' with
  | _ n ih =>
    by_cases hnil : tokens = []
    · subst hnil
      cases h
      rw [readStructs_nil, readStructs_nil]
      exact ⟨.nil, hscopes, .none⟩
    have hnil' : tokens' ≠ [] := by
      rintro rfl
      cases h
      exact hnil rfl
    have hread := (hctx.like hscopes).readStruct h
    generalize hreading : Context.readStruct _ tokens = reading,
      hreading' : Context.readStruct _ tokens' = reading' at hread
    cases hread with
    | failed hfailure _ =>
      rw [readStructs_of_failed hnil hreading, readStructs_of_failed hnil' hreading']
      exact ⟨.nil, hscopes, .some hfailure⟩
    | done hdecl hrest =>
      have hshorter := length_lt_of_readStruct hreading
      obtain ⟨hafter, hnew⟩ := hctx.declare hscopes hdecl
      rw [readStructs_of_done hreading, readStructs_of_done hreading']
      have hlater := ih _ (hlength ▸ hshorter) hafter hrest rfl
      exact ⟨.cons hnew hlater.declared, hlater.scope, hlater.failure⟩

/-! ### Whole texts -/

inductive Corresponding {α β : Type} (failures : Failure → Failure → Prop)
    (values : α → β → Prop) : Except Failure α → Except Failure β → Prop where
  | ok {a : α} {b : β} (h : values a b) : Corresponding failures values (.ok a) (.ok b)
  | error {failure failure' : Failure} (h : failures failure failure') :
    Corresponding failures values (.error failure) (.error failure')

theorem Corresponding.imp {α β : Type} {failures : Failure → Failure → Prop}
    {values values' : α → β → Prop} {x : Except Failure α} {y : Except Failure β}
    (h : Corresponding failures values x y) (hvalues : ∀ {a b}, values a b → values' a b) :
    Corresponding failures values' x y := by
  cases h with
  | ok h => exact .ok (hvalues h)
  | error h => exact .error h

variable {source source' filename filename' : String} {tokens tokens' : List Token}
  (htokens : tokenize source filename = .ok tokens)
  (htokens' : tokenize source' filename' = .ok tokens') (h : List.Forall₂ L.token tokens tokens')
include htokens htokens' h

/-- Two parses of one declaration correspond if their tokens and their scopes do. -/
theorem parseStruct_corresponding
    (hctx : (Context.ofTokens scope source tokens).Like L
      (.ofTokens scope' source' tokens')) :
    Corresponding L.failure L.Struct (parseStruct scope source filename)
      (parseStruct scope' source' filename') := by
  have hread := hctx.readStruct h
  rw [parseStruct, parseStruct, htokens, htokens']
  simp only
  generalize Context.readStruct _ tokens = reading, Context.readStruct _ tokens' = reading'
    at hread ⊢
  cases hread with
  | failed hfailure _ => exact .error hfailure
  | done hdecl hrest =>
    cases hrest with
    | nil => exact .ok hdecl
    | cons ht _ => exact .error (hctx.problem_some ht .trailing)

/-- Row by row: what has been declared so far keeps the scopes related. -/
theorem parseStructs_corresponding (hscopes : scopes scope scope')
    (hctx : (Context.ofTokens scope source tokens).StayLike L scopes declared
      (.ofTokens scope' source' tokens')) :
    Corresponding L.failure
      (fun result result' => List.Forall₂ declared result.1 result'.1 ∧ scopes result.2 result'.2)
      (parseStructs scope source filename) (parseStructs scope' source' filename') := by
  have hread : Parse.Like L scopes declared
      ((Context.ofTokens scope source tokens).readStructs tokens)
      ((Context.ofTokens scope' source' tokens').readStructs tokens') :=
    hctx.readStructs hscopes h
  rw [parseStructs, parseStructs, Grammar.parse_eq htokens, Grammar.parse_eq htokens']
  generalize Context.readStructs _ tokens = p, Context.readStructs _ tokens' = p' at hread ⊢
  obtain ⟨hdeclared, hafter, hfailure⟩ := hread
  simp only
  generalize p.failure = failure, p'.failure = failure' at hfailure ⊢
  cases hfailure with
  | none => exact .ok ⟨hdeclared, hafter⟩
  | some hfailure => exact .error hfailure

end Rows

end ShaderStruct
