import ShaderStruct.Proofs.Grammar.Declaration

/-!
# What a failure is about

A production that fails is stopped by the next token, or by the end of the input if nothing is left,
or it has just taken a token that it can make nothing of. One that succeeds leaves a rest of what it
was given. So the tokens left at a failure tell which token the failure is about.

This holds of any tokens, also of those that no text has.
-/

namespace ShaderStruct.Grammar

variable {α β : Type} {ctx : Context}

/-- A failure, with the tokens that are left, is about one of the tokens or about their end. -/
inductive Blames (ctx : Context) (tokens : List Token) : Failure → List Token → Prop where
  /-- The next token does not fit, or there is none. -/
  | expected {kinds : List TokenKind} {texts : List String} {used rest : List Token}
    (named : kinds ≠ []) (split : tokens = used ++ rest) :
    Blames ctx tokens (ctx.problemAt (.expected kinds texts) rest.head?) rest
  | notAType {used rest : List Token} {t : Token} (split : tokens = used ++ t :: rest) :
    Blames ctx tokens (ctx.problemAt .notAType (some t)) rest
  | invalidShorthand {allowed : String} {used rest : List Token} {t : Token}
    (split : tokens = used ++ t :: rest) :
    Blames ctx tokens (ctx.problemAt (.invalidShorthand t.text allowed) (some t)) rest
  | unknownType {used rest : List Token} {t : Token} (split : tokens = used ++ t :: rest)
    (kind : t.kind = .identifier) (unknown : ctx.scope.find? t.text = none) :
    Blames ctx tokens (ctx.problemAt (.unknownType t.text
      (Similarity.closeNames t.text ctx.scope.names)) (some t)) rest
  | unread {e : NumeralError} {used rest : List Token} {t : Token}
    (split : tokens = used ++ t :: rest) (kind : t.kind = .decimalInt)
    (unreadable : Decimal.readLiteral t.text = .error e) : Blames ctx tokens (.numeral e) rest

/-- A reading that leaves a rest of the tokens, with a value that has a property, or with a failure
that is about the tokens. -/
inductive Settles (ctx : Context) (p : α → Prop) (tokens : List Token) : Reading α → Prop where
  | done {value : α} {used rest : List Token} (split : tokens = used ++ rest) (holds : p value) :
    Settles ctx p tokens (.done value rest)
  | failed {failure : Failure} {rest : List Token} (blames : Blames ctx tokens failure rest) :
    Settles ctx p tokens (.failed failure rest)

variable {tokens rest : List Token}

/-- What a failure is about does not change with tokens in front. -/
theorem Blames.append {failure : Failure} {left : List Token} (h : Blames ctx rest failure left)
    (front : List Token) : Blames ctx (front ++ rest) failure left := by
  have hbehind : ∀ {used back : List Token}, rest = used ++ back →
      front ++ rest = front ++ used ++ back := by
    rintro used back rfl
    rw [List.append_assoc]
  cases h with
  | expected named split => exact .expected named (hbehind split)
  | notAType split => exact .notAType (hbehind split)
  | invalidShorthand split => exact .invalidShorthand (hbehind split)
  | unknownType split kind unknown => exact .unknownType (hbehind split) kind unknown
  | unread split kind unreadable => exact .unread (hbehind split) kind unreadable

theorem Blames.exists_split {failure : Failure} (h : Blames ctx tokens failure rest) :
    ∃ used, tokens = used ++ rest := by
  cases h with
  | expected _ split => exact ⟨_, split⟩
  | notAType split | invalidShorthand split | unknownType split | unread split =>
    exact ⟨_, split.trans (List.append_cons ..)⟩

/-- A syntax error is told at one of the tokens or at their end, and its hint, if it has one, says
something. -/
theorem Blames.exists_problemAt {e : SyntaxError} (h : Blames ctx tokens (.syntactic e) rest) :
    ∃ problem found, .syntactic e = ctx.problemAt problem found ∧ problem.hint ≠ some "" ∧
      ∀ t ∈ found, t ∈ tokens := by
  generalize hfailure : Failure.syntactic e = failure at h
  cases h with
  | expected named split =>
    refine ⟨_, _, rfl, by simp [SyntaxProblem.hint], fun t ht => ?_⟩
    rw [split]
    exact List.mem_append_right _ (List.mem_of_mem_head? ht)
  | notAType split => exact ⟨_, _, rfl, by simp [SyntaxProblem.hint], by simp [split]⟩
  | invalidShorthand split =>
    exact ⟨_, _, rfl, by simp [SyntaxProblem.hint, String.append_eq_empty_iff], by simp [split]⟩
  | @unknownType _ _ t split kind unknown =>
    refine ⟨_, _, rfl, ?_, by simp [split]⟩
    cases Similarity.closeNames t.text ctx.scope.names <;> simp [SyntaxProblem.hint]
  | unread => cases hfailure

namespace Settles

variable {p : α → Prop} {q : β → Prop} {r : Reading α}

theorem exists_split (h : Settles ctx p tokens r) : ∃ used, tokens = used ++ r.rest := by
  cases h with
  | done split _ => exact ⟨_, split⟩
  | failed blames => exact blames.exists_split

/-! ### Putting productions together -/

/-- A production may leave all of its tokens. -/
theorem stays {value : α} (holds : p value) : Settles ctx p tokens (.done value tokens) :=
  .done (List.nil_append tokens).symm holds

theorem taken {t : Token} {value : α} (holds : p value) :
    Settles ctx p (t :: rest) (.done value rest) :=
  .done List.singleton_append.symm holds

theorem append (h : Settles ctx p rest r) (front : List Token) :
    Settles ctx p (front ++ rest) r := by
  cases h with
  | done split holds => exact .done (by rw [split, List.append_assoc]) holds
  | failed blames => exact .failed (blames.append front)

theorem cons (h : Settles ctx p rest r) (t : Token) : Settles ctx p (t :: rest) r :=
  h.append [t]

theorem mono {p' : α → Prop} (h : Settles ctx p tokens r) (hp : ∀ value, p value → p' value) :
    Settles ctx p' tokens r := by
  cases h with
  | done split holds => exact .done split (hp _ holds)
  | failed blames => exact .failed blames

theorem andThen {next : α → List Token → Reading β} (h : Settles ctx p tokens r)
    (hnext : ∀ value rest, r = .done value rest → p value →
      Settles ctx q rest (next value rest)) : Settles ctx q tokens (r.andThen next) := by
  cases h with
  | done split holds =>
    rw [split]
    exact (hnext _ _ rfl holds).append _
  | failed blames => exact .failed blames

theorem map {f : α → β} (h : Settles ctx p tokens r) (hf : ∀ value, p value → q (f value)) :
    Settles ctx q tokens (r.map f) :=
  h.andThen fun value _ _ holds => .stays (hf value holds)

theorem ite {kinds : List TokenKind} {texts : List String} {r' : Reading α}
    (h : Context.comes kinds texts tokens = true → Settles ctx p tokens r)
    (h' : Settles ctx p tokens r') :
    Settles ctx p tokens (if Context.comes kinds texts tokens then r else r') := by
  split
  · exact h ‹_›
  · exact h'

/-- What a production makes of the tokens behind the next is about the tokens as well. -/
theorem tail (h : Settles ctx p tokens.tail r) : Settles ctx p tokens r := by
  cases tokens with
  | nil => exact h
  | cons t rest => exact h.cons t

/-! ### The productions -/

variable (ctx)

theorem take {kinds : List TokenKind} (hkinds : kinds ≠ []) (texts : List String)
    (tokens : List Token) : Settles ctx (fun _ => True) tokens (ctx.take kinds texts tokens) := by
  cases tokens with
  | nil => exact .failed (.expected hkinds (List.nil_append _).symm)
  | cons t rest =>
    rw [Context.take]
    split
    · exact .taken trivial
    · exact .failed (.expected hkinds (List.nil_append _).symm)

theorem readInt (tokens : List Token) :
    Settles ctx (fun _ => True) tokens (ctx.readInt tokens) := by
  cases tokens with
  | nil => exact .failed (.expected (by decide) (List.nil_append _).symm)
  | cons t rest =>
    by_cases hfits : t.fits [.decimalInt] [] = true
    · have htake : ctx.take [.decimalInt] [] (t :: rest) = .done t rest := if_pos hfits
      have hkind : t.kind = .decimalInt := by simpa [Token.fits] using hfits
      rw [Context.readInt, htake, Reading.andThen]
      split
      · exact .taken trivial
      · next e he => exact .failed (.unread (List.nil_append _).symm hkind he)
    · have htake : ctx.take [.decimalInt] [] (t :: rest) =
          .failed (ctx.problemAt (.expected [.decimalInt] []) (some t)) (t :: rest) := if_neg hfits
      rw [Context.readInt, htake, Reading.andThen]
      exact .failed (.expected (by decide) (List.nil_append _).symm)

theorem readAttribute (tokens : List Token) :
    Settles ctx (fun _ => True) tokens (ctx.readAttribute tokens) := by
  unfold Context.readAttribute
  refine (take ctx (by decide) _ tokens).andThen fun _ rest _ _ => ?_
  refine (take ctx (by decide) _ rest).andThen fun keyword rest _ _ => ?_
  refine (take ctx (by decide) _ rest).andThen fun _ rest _ _ => ?_
  refine (readInt ctx rest).andThen fun value rest _ _ => ?_
  exact (take ctx (by decide) _ rest).map fun _ _ => trivial

theorem readAttributes (tokens : List Token) :
    Settles ctx (fun _ => True) tokens (ctx.readAttributes tokens) := by
  induction hlength : tokens.length using Nat.strong_induction_on generalizing tokens with
  | _ n ih =>
    rw [Language.readAttributes_eq]
    refine .ite (fun _ => ?_) (.stays trivial)
    refine (readAttribute ctx tokens).andThen fun node rest hread _ => ?_
    have hshorter := Context.length_lt_of_readAttribute hread
    exact (ih rest.length (hlength ▸ hshorter) rest rfl).map fun _ _ => trivial

theorem readNamed {t : Token} (hkind : t.kind = .identifier) (rest : List Token) :
    Settles ctx (fun _ => True) (t :: rest) (ctx.readNamed t rest) := by
  rw [Context.readNamed]
  split
  · exact .taken trivial
  · next hunknown =>
    -- A name that no declaration has may be that of a shape with a letter it does not take.
    split
    · split
      · exact .failed (.unknownType (List.nil_append _).symm hkind hunknown)
      · exact .failed (.invalidShorthand (List.nil_append _).symm)
    · exact .failed (.unknownType (List.nil_append _).symm hkind hunknown)

section Brackets

variable (htype : ∀ rest : List Token, rest.length < tokens.length →
  Settles ctx (fun _ => True) rest (ctx.readType rest))
include htype

theorem readTemplate : Settles ctx (fun _ => True) tokens (ctx.readTemplate tokens) := by
  rw [Language.readTemplate_eq]
  refine (take ctx (by decide) _ tokens).andThen fun _ rest hread _ => ?_
  refine (htype rest (Context.length_lt_of_take hread)).andThen fun element rest _ _ => ?_
  exact (take ctx (by decide) _ rest).map fun _ _ => trivial

theorem readArray : Settles ctx (fun _ => True) tokens (ctx.readArray tokens) := by
  rw [Language.readArray_eq]
  refine (take ctx (by decide) _ tokens).andThen fun _ rest hread _ => ?_
  refine (htype rest (Context.length_lt_of_take hread)).andThen fun element rest _ _ => ?_
  refine .ite (fun _ => .tail ?_) ((take ctx (by decide) _ rest).map fun _ _ => trivial)
  refine (readInt ctx rest.tail).andThen fun count rest _ _ => ?_
  exact (take ctx (by decide) _ rest).map fun _ _ => trivial

end Brackets

/-- A type is read from the front of the tokens, or one of them is to blame. -/
theorem readType (tokens : List Token) :
    Settles ctx (fun _ => True) tokens (ctx.readType tokens) := by
  induction hlength : tokens.length using Nat.strong_induction_on generalizing tokens with
  | _ n ih =>
    cases tokens with
    | nil =>
      rw [Context.readType]
      exact .failed (.expected (by decide) (List.nil_append _).symm)
    | cons t rest =>
      have htype : ∀ more : List Token, more.length < rest.length →
          Settles ctx (fun _ => True) more (ctx.readType more) := by
        intro more hmore
        rw [List.length_cons] at hlength
        exact ih more.length (by omega) more rfl
      rw [Context.readType]
      split
      · next hkind => exact readNamed ctx hkind rest
      · split
        · exact (readArray ctx htype).cons t
        · exact .taken trivial
        · exact ((readTemplate ctx htype).map fun _ _ => trivial).cons t
        · split
          · exact .taken trivial
          · exact .failed (.invalidShorthand (List.nil_append _).symm)
        · exact .failed (.notAType (List.nil_append _).symm)
      · exact .failed (.expected (by decide) (List.nil_append _).symm)

/-! ### Declarations -/

theorem readMember (tokens : List Token) :
    Settles ctx (fun _ => True) tokens (ctx.readMember tokens) := by
  refine (readAttributes ctx tokens).andThen fun attributes rest _ _ => ?_
  cases rest with
  | nil => exact .stays trivial
  | cons name rest =>
    simp only
    split
    · refine Settles.cons ?_ name
      refine (take ctx (by decide) _ rest).andThen fun _ rest _ _ => ?_
      exact (readType ctx rest).map fun _ _ => trivial
    · exact .stays trivial

theorem readMembers (tokens : List Token) :
    Settles ctx (fun _ => True) tokens (ctx.readMembers tokens) := by
  induction hlength : tokens.length using Nat.strong_induction_on generalizing tokens with
  | _ n ih =>
    rw [Context.readMembers_eq]
    refine (readMember ctx tokens).andThen fun member rest hread _ => ?_
    cases member with
    | none => exact .stays trivial
    | some member =>
      have hshorter := Context.length_lt_of_readMember hread
      refine .ite (fun _ => .tail ?_) (.stays trivial)
      refine (ih rest.tail.length ?_ rest.tail rfl).map fun _ _ => trivial
      rw [List.length_tail]
      omega

/-- **Every failure to read a declaration is about a token, or about the end of the tokens.** -/
theorem readStruct (tokens : List Token) :
    Settles ctx (fun _ => True) tokens (ctx.readStruct tokens) := by
  have hnamed : ∀ tokens, Settles ctx (fun _ => True) tokens
      ((ctx.take [.identifier] [] tokens).andThen fun name rest =>
        (ctx.take [.punctuator] ["\x7b"] rest).andThen fun _ rest =>
          (ctx.readMembers rest).andThen fun members rest =>
            (ctx.take [.punctuator] ["\x7d"] rest).map fun _ => (⟨name.text, members⟩ : Struct)) := by
    intro tokens
    refine (take ctx (by decide) _ tokens).andThen fun name rest _ _ => ?_
    refine (take ctx (by decide) _ rest).andThen fun _ rest _ _ => ?_
    refine (readMembers ctx rest).andThen fun members rest _ _ => ?_
    exact (take ctx (by decide) _ rest).map fun _ _ => trivial
  rw [Context.readStruct, Context.skipStruct]
  split
  · exact .tail (hnamed tokens.tail)
  · exact hnamed tokens

end Settles

end ShaderStruct.Grammar
