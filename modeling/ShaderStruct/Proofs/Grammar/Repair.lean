import Mathlib.Data.List.Basic
import ShaderStruct.Proofs.Grammar.Blame
import ShaderStruct.Proofs.Grammar.Lookahead
import ShaderStruct.Proofs.Resolution

/-!
# Known names in the place of unknown ones

A production that fails at a name since nothing in scope has it has come to where a type is named.
So with a known name in that place it goes on, whatever follows: it returns a value in which the
name is resolved, or it fails at a later token.

This holds of any tokens, also of those that no text has.
-/

namespace ShaderStruct.Grammar

variable {α β : Type} {ctx : Context}

theorem problemAt_inj {problem problem' : SyntaxProblem} {found found' : Option Token}
    (h : ctx.problemAt problem found = ctx.problemAt problem' found') :
    problem = problem' ∧ found = found' := by
  have herror := Failure.syntactic.inj h
  exact ⟨congrArg SyntaxError.problem herror, congrArg SyntaxError.found herror⟩

/-! ### Readings that look up no name -/

def Nameless (ctx : Context) (r : Reading α) : Prop :=
  ∀ name similar found rest, r ≠ .failed (ctx.problemAt (.unknownType name similar) found) rest

namespace Nameless

variable {r : Reading α}

theorem done (value : α) (rest : List Token) : Nameless ctx (.done value rest) := by
  rintro name similar found behind ⟨⟩

theorem expected (kinds : List TokenKind) (texts : List String) (found : Option Token)
    (rest : List Token) :
    Nameless ctx (.failed (ctx.problemAt (.expected kinds texts) found) rest : Reading α) := by
  intro name similar found' behind h
  cases (problemAt_inj (Reading.failed.inj h).1).1

theorem andThen {next : α → List Token → Reading β} (h : Nameless ctx r)
    (hnext : ∀ value rest, Nameless ctx (next value rest)) : Nameless ctx (r.andThen next) := by
  cases r with
  | done value rest => exact hnext value rest
  | failed failure rest =>
    intro name similar found behind heq
    obtain ⟨hfailure, hrest⟩ := Reading.failed.inj heq
    exact h name similar found behind (by rw [hfailure, hrest])

theorem map (f : α → β) (h : Nameless ctx r) : Nameless ctx (r.map f) :=
  h.andThen fun value rest => done (f value) rest

variable (ctx)

theorem take (kinds : List TokenKind) (texts : List String) (tokens : List Token) :
    Nameless ctx (ctx.take kinds texts tokens) := by
  cases tokens with
  | nil => exact expected kinds texts none []
  | cons t rest =>
    rw [Context.take]
    split
    · exact done t rest
    · exact expected kinds texts (some t) (t :: rest)

theorem readInt (tokens : List Token) : Nameless ctx (ctx.readInt tokens) := by
  refine (take ctx _ _ tokens).andThen fun token rest => ?_
  split
  · exact done _ rest
  · rintro name similar found behind ⟨⟩

theorem readAttribute (tokens : List Token) : Nameless ctx (ctx.readAttribute tokens) := by
  refine (take ctx _ _ tokens).andThen fun _ rest => ?_
  refine (take ctx _ _ rest).andThen fun keyword rest => ?_
  refine (take ctx _ _ rest).andThen fun _ rest => ?_
  refine (readInt ctx rest).andThen fun value rest => ?_
  exact (take ctx _ _ rest).map _

theorem readAttributes (tokens : List Token) : Nameless ctx (ctx.readAttributes tokens) := by
  fun_induction Context.readAttributes ctx tokens with
  | case1 tokens _ node rest hread ih => exact ih.map _
  | case2 tokens _ failure rest hread =>
    have hfirst := readAttribute ctx tokens
    rw [hread] at hfirst
    intro name similar found behind heq
    obtain ⟨rfl, rfl⟩ := Reading.failed.inj heq
    exact hfirst name similar found _ rfl
  | case3 tokens => exact done [] tokens

end Nameless

/-! ### Readings that go on -/

/-- Behind some tokens a production takes any known name. Whatever follows, a failure is about what
follows, and in a value the name is resolved, in a place that does not depend on the name. -/
def Takes (ctx : Context) (references : α → List Declared) (read : List Token → Reading α)
    (front : List Token) : Prop :=
  ∃ k : Nat, ∀ (u : Token) (target : Declared) (more : List Token), u.kind = .identifier →
    ctx.scope.find? u.text = some target →
      Settles ctx (fun value => (references value)[k]? = some target) more
        (read (front ++ u :: more))

/-- Where a production fails since a name is unknown, it takes any known one. That is behind a
punctuator, or else at the first token, if a type may be there. -/
def Repairable (ctx : Context) (references : α → List Declared) (read : List Token → Reading α)
    (first : Prop) (tokens : List Token) : Prop :=
  ∀ name similar t rest,
    read tokens = .failed (ctx.problemAt (.unknownType name similar) (some t)) rest →
      ∃ front, tokens = front ++ t :: rest ∧ (∀ b ∈ front.getLast?, b.kind = .punctuator) ∧
        (front = [] → first) ∧ Takes ctx references read front

namespace Repairable

variable {references : α → List Declared} {read read' : List Token → Reading α} {first : Prop}
  {tokens rest : List Token} {t : Token}

theorem of_nameless (h : Nameless ctx (read tokens)) :
    Repairable ctx references read first tokens :=
  fun name similar t rest hread => absurd hread (h name similar (some t) rest)

theorem mono {first' : Prop} (h : Repairable ctx references read first tokens)
    (himp : first → first') : Repairable ctx references read first' tokens := by
  intro name similar t rest hread
  obtain ⟨front, hsplit, hpunctuator, hfirst, htakes⟩ := h name similar t rest hread
  exact ⟨front, hsplit, hpunctuator, fun hnil => himp (hfirst hnil), htakes⟩

/-- Productions that agree wherever the next token is the one that comes. -/
theorem congr (h : Repairable ctx references read' False tokens)
    (heq : ∀ tokens', tokens'.head? = tokens.head? → read tokens' = read' tokens') :
    Repairable ctx references read False tokens := by
  intro name similar t rest hread
  rw [heq tokens rfl] at hread
  obtain ⟨front, rfl, hpunctuator, hfirst, k, htakes⟩ := h name similar t rest hread
  refine ⟨front, rfl, hpunctuator, hfirst, k, fun u target more hkind hfind => ?_⟩
  obtain ⟨b, front, rfl⟩ := List.exists_cons_of_ne_nil hfirst
  rw [heq (b :: front ++ u :: more) rfl]
  exact htakes u target more hkind hfind

/-- Going on behind a token. -/
theorem cons (h : Repairable ctx references read' first rest)
    (hkind : first → t.kind = .punctuator) (heq : ∀ more, read (t :: more) = read' more) :
    Repairable ctx references read False (t :: rest) := by
  intro name similar u behind hread
  rw [heq] at hread
  obtain ⟨front, rfl, hpunctuator, hfirst, k, htakes⟩ := h name similar u behind hread
  refine ⟨t :: front, rfl, ?_, fun hnil => absurd hnil (List.cons_ne_nil t front), k,
    fun u target more hname hfind => ?_⟩
  · cases front with
    | nil =>
      intro b hb
      obtain rfl : t = b := by simpa using hb
      exact hkind (hfirst rfl)
    | cons b front => rwa [List.getLast?_cons_cons]
  · rw [List.cons_append, heq]
    exact htakes u target more hname hfind

/-- A choice by the next token. -/
theorem ite {kinds : List TokenKind} {texts : List String}
    (h : Context.comes kinds texts tokens = true → Repairable ctx references read False tokens)
    (h' : Nameless ctx (read' tokens)) :
    Repairable ctx references
      (fun tokens => if Context.comes kinds texts tokens then read tokens else read' tokens) False
      tokens := by
  by_cases hcomes : Context.comes kinds texts tokens = true
  · refine (h hcomes).congr fun tokens' hhead => ?_
    rw [Prompt.comes_eq hhead, if_pos hcomes]
  · refine of_nameless ?_
    rwa [if_neg hcomes]

/-- One production after the other. What the first has resolved has to stay resolved. -/
theorem andThen {next : α → List Token → Reading β} {references' : β → List Declared}
    (h : Repairable ctx references read first tokens) (hprompt : Prompt read tokens)
    (hkeep : ∀ (k : Nat) target value rest, (references value)[k]? = some target →
      Settles ctx (fun b => (references' b)[k]? = some target) rest (next value rest))
    (hnext : ∀ value rest, read tokens = .done value rest →
      Repairable ctx references' (next value) False rest) :
    Repairable ctx references' (fun tokens => (read tokens).andThen next) first tokens := by
  intro name similar t rest hread
  cases hfirst : read tokens with
  | failed failure left =>
    simp only [hfirst, Reading.andThen] at hread
    obtain ⟨rfl, rfl⟩ := Reading.failed.inj hread
    obtain ⟨front, hsplit, hpunctuator, hleading, k, htakes⟩ := h name similar t _ hfirst
    refine ⟨front, hsplit, hpunctuator, hleading, k, fun u target more hkind hfind => ?_⟩
    exact (htakes u target more hkind hfind).andThen fun value rest _ hvalue =>
      hkeep k target value rest hvalue
  | done value middle =>
    have howes : Owes read tokens (read tokens) := hprompt
    simp only [hfirst, Reading.andThen] at hread howes
    cases howes with
    | @done _ used _ hsplit _ settled =>
      obtain ⟨front, rfl, hpunctuator, hleading, k, htakes⟩ :=
        hnext value _ hfirst name similar t rest hread
      obtain ⟨b, front, rfl⟩ := List.exists_cons_of_ne_nil hleading
      refine ⟨used ++ b :: front, by rw [hsplit, List.append_assoc], ?_, by simp, k, ?_⟩
      · rwa [List.getLast?_append_of_ne_nil _ (by simp)]
      · intro u target more hkind hfind
        have hagain := settled (b :: front ++ u :: more) rfl
        simp only [List.append_assoc, hagain, Reading.andThen]
        exact htakes u target more hkind hfind

/-- Putting values together, some targets in front. -/
theorem map {f : α → β} {references' : β → List Declared} (front : List Declared)
    (h : Repairable ctx references read first tokens)
    (hf : ∀ value, references' (f value) = front ++ references value) :
    Repairable ctx references' (fun tokens => (read tokens).map f) first tokens := by
  intro name similar t rest hread
  cases hfirst : read tokens with
  | done value middle =>
    simp only [hfirst, Reading.map, Reading.andThen] at hread
    cases hread
  | failed failure left =>
    simp only [hfirst, Reading.map, Reading.andThen] at hread
    obtain ⟨rfl, rfl⟩ := Reading.failed.inj hread
    obtain ⟨before, hsplit, hpunctuator, hleading, k, htakes⟩ := h name similar t _ hfirst
    refine ⟨before, hsplit, hpunctuator, hleading, front.length + k,
      fun u target more hkind hfind => ?_⟩
    refine (htakes u target more hkind hfind).map fun value hvalue => ?_
    rw [hf, List.getElem?_append_right (Nat.le_add_right _ _), Nat.add_sub_cancel_left]
    exact hvalue

/-- Going on behind a token that had to come. -/
theorem take {kinds : List TokenKind} {texts : List String} {next : Token → List Token → Reading α}
    (hkinds : first → kinds = [.punctuator])
    (h : ∀ t rest, tokens = t :: rest → Repairable ctx references (next t) first rest) :
    Repairable ctx references (fun tokens => (ctx.take kinds texts tokens).andThen next) False
      tokens := by
  cases tokens with
  | nil => exact of_nameless (.expected kinds texts none [])
  | cons t rest =>
    by_cases hfits : t.fits kinds texts = true
    · refine (h t rest rfl).cons (fun hfirst => ?_) fun more => ?_
      · simpa [Token.fits, hkinds hfirst] using (Bool.and_eq_true_iff.1 hfits).1
      · rw [Context.take, if_pos hfits, Reading.andThen]
    · refine of_nameless ?_
      rw [Context.take, if_neg hfits, Reading.andThen]
      exact .expected kinds texts (some t) (t :: rest)

variable (ctx)

/-! ### The productions -/

/-- The place of a name is the first one. -/
theorem readNamed {read : List Token → Reading Node} (t : Token) (rest : List Token)
    (hkind : t.kind = .identifier)
    (heq : ∀ (u : Token) more, u.kind = .identifier → read (u :: more) = ctx.readNamed u more) :
    Repairable ctx Node.references read True (t :: rest) := by
  intro name similar u behind hread
  rw [heq t rest hkind, Context.readNamed] at hread
  obtain ⟨rfl, rfl⟩ : t = u ∧ rest = behind := by
    split at hread
    · cases hread
    · obtain ⟨hfailure, hrest⟩ := Reading.failed.inj hread
      exact ⟨Option.some.inj (problemAt_inj hfailure).2, hrest⟩
  refine ⟨[], rfl, by simp, fun _ => trivial, 0, fun u target more hname hfind => ?_⟩
  rw [List.nil_append, heq u more hname, Context.readNamed, hfind]
  refine .stays ?_
  rw [Node.references]
  rfl

section Brackets

variable (htype : ∀ rest : List Token, rest.length < tokens.length →
  Repairable ctx Node.references ctx.readType True rest)
include htype

theorem readTemplate : Repairable ctx Node.references ctx.readTemplate False tokens := by
  rw [funext Language.readTemplate_eq]
  refine take (fun _ : True => rfl) fun t rest heq => ?_
  have hshorter : rest.length < tokens.length := by
    rw [heq]
    exact Nat.lt_succ_self _
  refine (htype rest hshorter).andThen (Prompt.readType ctx rest) ?_ ?_
  · intro k target element rest hvalue
    exact (Settles.take ctx (by decide) _ rest).map fun _ _ => hvalue
  · intro element rest _
    exact of_nameless ((Nameless.take ctx _ _ rest).map _)

theorem readArray : Repairable ctx Node.references ctx.readArray False tokens := by
  rw [funext Language.readArray_eq]
  refine take (fun _ : True => rfl) fun t rest heq => ?_
  have hshorter : rest.length < tokens.length := by
    rw [heq]
    exact Nat.lt_succ_self _
  refine (htype rest hshorter).andThen (Prompt.readType ctx rest) ?_ ?_
  · intro k target element rest hvalue
    refine .ite (fun _ => .tail ?_) ?_
    · refine (Settles.readInt ctx rest.tail).andThen fun count rest _ _ => ?_
      refine (Settles.take ctx (by decide) _ rest).map fun _ _ => ?_
      rwa [Node.references]
    · refine (Settles.take ctx (by decide) _ rest).map fun _ _ => ?_
      rwa [Node.references]
  · intro element rest _
    refine of_nameless ?_
    split
    · exact (Nameless.readInt ctx _).andThen fun _ rest => (Nameless.take ctx _ _ rest).map _
    · exact (Nameless.take ctx _ _ rest).map _

end Brackets

/-- **A type with an unknown name is read with a known one.** -/
theorem readType (tokens : List Token) :
    Repairable ctx Node.references ctx.readType True tokens := by
  induction hlength : tokens.length using Nat.strong_induction_on generalizing tokens with
  | _ n ih =>
    cases tokens with
    | nil =>
      refine of_nameless ?_
      rw [Context.readType]
      exact .expected _ _ none []
    | cons t rest =>
      have htype : ∀ more : List Token, more.length < rest.length →
          Repairable ctx Node.references ctx.readType True more := by
        intro more hmore
        rw [List.length_cons] at hlength
        exact ih more.length (by omega) more rfl
      have hread : ∀ more, ctx.readType (t :: more) = _ := fun more => by rw [Context.readType]
      by_cases hidentifier : t.kind = .identifier
      · refine readNamed ctx t rest hidentifier fun u more hkind => ?_
        rw [Context.readType, hkind]
      by_cases hkeyword : t.kind = .keyword
      · simp only [hkeyword] at hread
        cases hname : TypeName.ofText? t.text with
        | none =>
          refine of_nameless ?_
          rw [hread, hname]
          intro name similar found behind heq
          cases (problemAt_inj (Reading.failed.inj heq).1).1
        | some name =>
          simp only [hname] at hread
          cases name with
          | array => exact ((readArray ctx htype).cons False.elim hread).mono False.elim
          | scalar kind =>
            refine of_nameless ?_
            rw [hread]
            exact .done _ rest
          | shaped shape letter =>
            cases letter with
            | none =>
              exact (((readTemplate ctx htype).map [] (references_ofElement shape)).cons False.elim
                hread).mono False.elim
            | some letter =>
              refine of_nameless ?_
              rw [hread]
              simp only
              split
              · exact .done _ rest
              · intro name similar found behind heq
                cases (problemAt_inj (Reading.failed.inj heq).1).1
      · refine of_nameless ?_
        rw [hread]
        split
        · contradiction
        · contradiction
        · exact .expected _ _ (some t) (t :: rest)

/-! ### Declarations -/

theorem settles_readBody (tokens : List Token) :
    Settles ctx (fun _ => True) tokens (ctx.readBody tokens) := by
  refine (Settles.readMembers ctx tokens).andThen fun members rest _ _ => ?_
  exact (Settles.take ctx (by decide) _ rest).map fun _ _ => trivial

/-- Behind a member, that member comes first. -/
theorem settles_readMemberEnd (member : Member) (tokens : List Token) :
    Settles ctx (fun members => ∃ more, members = member :: more) tokens
      (ctx.readMemberEnd member tokens) := by
  refine .ite (fun _ => .tail ?_) ?_
  · exact (settles_readBody ctx tokens.tail).map fun members _ => ⟨members, rfl⟩
  · exact (Settles.take ctx (by decide) _ tokens).map fun _ _ => ⟨[], rfl⟩

theorem getElem?_references_of_type {name : String} {type : Node} {attributes : List Node}
    {more : List Member} {k : Nat} {target : Declared}
    (h : type.references[k]? = some target) :
    (referencesInMembers (⟨name, type, attributes⟩ :: more))[k]? = some target := by
  obtain ⟨hk, -⟩ := List.getElem?_eq_some_iff.1 h
  rw [referencesInMembers, Member.references, List.append_assoc, List.getElem?_append_left hk]
  exact h

section Members

variable (hbody : ∀ rest : List Token, rest.length < tokens.length →
  Repairable ctx referencesInMembers ctx.readBody False rest)
include hbody

theorem readMemberEnd (member : Member) :
    Repairable ctx referencesInMembers (ctx.readMemberEnd member) False tokens := by
  unfold Context.readMemberEnd
  refine ite (fun hcomes => ?_) ((Nameless.take ctx _ _ tokens).map _)
  obtain ⟨t, rest, rfl, -⟩ := Prompt.exists_cons_of_comes (by decide) hcomes
  have hrest := hbody rest (Nat.lt_succ_self _)
  refine (hrest.map member.references fun members => ?_).cons False.elim fun _ => rfl
  rw [referencesInMembers]

theorem readAttributesEnd (attributes : List Node) :
    Repairable ctx referencesInMembers (ctx.readAttributesEnd attributes) False tokens := by
  unfold Context.readAttributesEnd
  refine ite (fun _ => ?_) ((Nameless.take ctx _ _ tokens).map _)
  refine take (fun h : False => h.elim) fun name rest₁ hname => ?_
  refine take (fun _ : True => rfl) fun _ rest₂ hcolon => ?_
  have hshorter : rest₂.length + 2 = tokens.length := by
    rw [hname, hcolon]
    rfl
  refine (readType ctx rest₂).andThen (Prompt.readType ctx rest₂) ?_ ?_
  · intro k target type rest htarget
    refine (settles_readMemberEnd ctx _ rest).mono ?_
    rintro _ ⟨more, rfl⟩
    exact getElem?_references_of_type htarget
  · intro type rest₃ hread
    have htype := Context.length_lt_of_readType rest₂ hread
    exact readMemberEnd ctx (fun rest hrest => hbody rest (by omega)) _

end Members

theorem readBody (tokens : List Token) :
    Repairable ctx referencesInMembers ctx.readBody False tokens := by
  induction hlength : tokens.length using Nat.strong_induction_on generalizing tokens with
  | _ n ih =>
    rw [funext ctx.readBody_eq]
    have hattributes : Repairable ctx (fun _ => []) ctx.readAttributes False tokens :=
      of_nameless (Nameless.readAttributes ctx tokens)
    refine hattributes.andThen (Prompt.readAttributes ctx tokens) ?_ ?_
    · intro k target attributes rest h
      cases h
    · intro attributes rest hread
      have hshorter := Context.length_le_of_readAttributes hread
      exact readAttributesEnd ctx (fun more hmore => ih more.length (by omega) more rfl) attributes

/-- **A declaration with an unknown name is read on with a known one.** -/
theorem readStruct (tokens : List Token) :
    Repairable ctx Struct.references ctx.readStruct False tokens := by
  have hnamed : ∀ tokens, Repairable ctx Struct.references (fun tokens =>
      (ctx.take [.identifier] [] tokens).andThen fun name rest =>
        (ctx.take [.punctuator] ["\x7b"] rest).andThen fun _ rest =>
          (ctx.readBody rest).map fun members => (⟨name.text, members⟩ : Struct)) False tokens := by
    intro tokens
    refine take (fun h : False => h.elim) fun name rest _ => ?_
    refine take (fun h : False => h.elim) fun _ rest _ => ?_
    refine (readBody ctx rest).map [] fun members => ?_
    rw [Struct.references]
    rfl
  by_cases hcomes : Context.comes [.keyword] ["struct"] tokens = true
  · obtain ⟨t, rest, rfl, -⟩ := Prompt.exists_cons_of_comes (by decide) hcomes
    refine (hnamed rest).cons False.elim fun more => ?_
    have hskip : Context.skipStruct (t :: more) = more := if_pos hcomes
    rw [Language.readStruct_eq, hskip]
  · refine (hnamed tokens).congr fun tokens' hhead => ?_
    rw [Language.readStruct_eq, Context.skipStruct, Prompt.comes_eq hhead, if_neg hcomes]

end Repairable

end ShaderStruct.Grammar
