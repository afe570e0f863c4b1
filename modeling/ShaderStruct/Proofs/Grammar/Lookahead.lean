import ShaderStruct.Proofs.Grammar.Declaration

/-!
# What a production looks at

A production never looks further than the token it has come to. What it has read decides what it
returns, together with the one token behind; and where it fails at a token, it fails whatever
follows that token. An integer that cannot be read stops a production on the spot, so it is the
first of its sort.

This holds of any tokens, also of those that no text has.
-/

namespace ShaderStruct.Grammar

variable {α β : Type}

def Readable (tokens : List Token) : Prop :=
  ∀ t ∈ tokens, t.kind = .decimalInt → ∃ value, Decimal.readLiteral t.text = .ok value

theorem readable_nil : Readable [] := by
  simp [Readable]

theorem readable_singleton {t : Token} (h : t.kind ≠ .decimalInt) : Readable [t] := by
  simp [Readable, h]

theorem readable_append {front back : List Token} :
    Readable (front ++ back) ↔ Readable front ∧ Readable back := by
  simp only [Readable, List.mem_append, or_imp, forall_and]

/-- A production fails on every input that goes on with a token behind some others. -/
def Blocks (read : List Token → Reading α) (front : List Token) (t : Token) : Prop :=
  ∀ more, ∃ failure rest, read (front ++ t :: more) = .failed failure rest

/-- What a reading owes to which tokens: a value to those read and the one behind them, and a
failure to the end of the input, to a token that cannot be where it is found, or to the integer just
read. -/
inductive Owes (read : List Token → Reading α) (tokens : List Token) : Reading α → Prop where
  | done {value : α} {used rest : List Token} (split : tokens = used ++ rest)
    (readable : Readable used)
    (settled : ∀ rest', rest'.head? = rest.head? → read (used ++ rest') = .done value rest') :
    Owes read tokens (.done value rest)
  | ended {e : SyntaxError} (found : e.found = none) : Owes read tokens (.failed (.syntactic e) [])
  | unexpected {e : SyntaxError} {front after rest : List Token} {t : Token}
    (split : tokens = front ++ t :: after) (found : e.found = some t)
    (blocks : Blocks read front t) : Owes read tokens (.failed (.syntactic e) rest)
  | unread {e : NumeralError} {front rest : List Token} {t : Token}
    (split : tokens = front ++ t :: rest) (kind : t.kind = .decimalInt)
    (readable : Readable front) (unreadable : Decimal.readLiteral t.text = .error e)
    (blocks : Blocks read front t) : Owes read tokens (.failed (.numeral e) rest)

/-- On some input, a production looks no further than the token it comes to. -/
def Prompt (read : List Token → Reading α) (tokens : List Token) : Prop :=
  Owes read tokens (read tokens)

namespace Prompt

variable {read : List Token → Reading α} {tokens rest : List Token} {t : Token}

theorem head?_append_eq {back back' : List Token} (front : List Token)
    (h : back'.head? = back.head?) : (front ++ back').head? = (front ++ back).head? := by
  rw [List.head?_append, List.head?_append, h]

/-! ### Putting productions together -/

/-- One prompt production behind the other is prompt, as the second starts where the first stops. -/
theorem andThen {next : α → List Token → Reading β} (h : Prompt read tokens)
    (hnext : ∀ value rest, read tokens = .done value rest → Prompt (next value) rest) :
    Prompt (fun tokens => (read tokens).andThen next) tokens := by
  have hblocks : ∀ {front t}, Blocks read front t →
      Blocks (fun tokens => (read tokens).andThen next) front t := by
    intro front t hblocks more
    obtain ⟨failure, rest, hfailed⟩ := hblocks more
    exact ⟨failure, rest, by simp only [hfailed, Reading.andThen]⟩
  unfold Prompt at h
  change Owes _ tokens ((read tokens).andThen next)
  generalize hread : read tokens = reading at h
  cases h with
  | ended found => exact .ended found
  | unexpected split found blocks => exact .unexpected split found (hblocks blocks)
  | unread split kind readable unreadable blocks =>
    exact .unread split kind readable unreadable (hblocks blocks)
  | @done value used middle split readable settled =>
    -- Whatever follows its token, the second production is reached where it was before.
    have hreached : ∀ {front after t}, middle = front ++ t :: after →
        Blocks (next value) front t →
        Blocks (fun tokens => (read tokens).andThen next) (used ++ front) t := by
      rintro front after t rfl hblocks more
      obtain ⟨failure, rest, hfailed⟩ := hblocks more
      have hfirst := settled (front ++ t :: more) (head?_append_eq front rfl)
      exact ⟨failure, rest, by simp only [List.append_assoc, hfirst, Reading.andThen, hfailed]⟩
    have hsecond := hnext value middle hread
    subst split
    unfold Prompt at hsecond
    change Owes _ _ (next value middle)
    generalize hreading : next value middle = reading at hsecond
    cases hsecond with
    | ended found => exact .ended found
    | unexpected split found blocks =>
      have hsplit := congrArg (used ++ ·) split
      exact .unexpected (hsplit.trans (List.append_assoc ..).symm) found (hreached split blocks)
    | unread split kind readable' unreadable blocks =>
      have hsplit := congrArg (used ++ ·) split
      exact .unread (hsplit.trans (List.append_assoc ..).symm) kind
        (readable_append.2 ⟨readable, readable'⟩) unreadable (hreached split blocks)
    | @done _ used' rest split readable' settled' =>
      subst split
      refine .done (List.append_assoc ..).symm (readable_append.2 ⟨readable, readable'⟩) ?_
      intro rest' hrest'
      have hfirst := settled (used' ++ rest') (head?_append_eq used' hrest')
      simp only [List.append_assoc, hfirst]
      exact settled' rest' hrest'

theorem done (value : α) (tokens : List Token) : Prompt (Reading.done value) tokens :=
  Owes.done rfl readable_nil fun _ _ => rfl

theorem map (f : α → β) (h : Prompt read tokens) :
    Prompt (fun tokens => (read tokens).map f) tokens :=
  h.andThen fun value rest _ => done (f value) rest

/-- Two productions that agree wherever the next token is the one that comes. -/
theorem congr {read' : List Token → Reading α} (h : Prompt read' tokens)
    (heq : ∀ tokens', tokens'.head? = tokens.head? → read tokens' = read' tokens') :
    Prompt read tokens := by
  unfold Prompt at h ⊢
  have hblocks : ∀ {front after t}, tokens = front ++ t :: after → Blocks read' front t →
      Blocks read front t := by
    rintro front after t rfl hblocks more
    obtain ⟨failure, rest, hfailed⟩ := hblocks more
    have hhead : (front ++ t :: more).head? = (front ++ t :: after).head? :=
      head?_append_eq front rfl
    exact ⟨failure, rest, (heq _ hhead).trans hfailed⟩
  rw [heq tokens rfl]
  generalize hread : read' tokens = reading at h
  cases h with
  | ended found => exact .ended found
  | unexpected split found blocks => exact .unexpected split found (hblocks split blocks)
  | unread split kind readable unreadable blocks =>
    exact .unread split kind readable unreadable (hblocks split blocks)
  | done split readable settled =>
    subst split
    refine .done rfl readable fun rest' hrest' => ?_
    rw [heq _ (head?_append_eq _ hrest')]
    exact settled rest' hrest'

theorem comes_eq {kinds : List TokenKind} {texts : List String} {tokens tokens' : List Token}
    (h : tokens'.head? = tokens.head?) :
    Context.comes kinds texts tokens' = Context.comes kinds texts tokens := by
  cases tokens <;> cases tokens' <;> simp_all [Context.comes]

theorem exists_cons_of_comes {kind : TokenKind} {text : String} (hkind : kind ≠ .decimalInt)
    (h : Context.comes [kind] [text] tokens = true) :
    ∃ t rest, tokens = t :: rest ∧ t.kind ≠ .decimalInt := by
  obtain ⟨t, rest, rfl, ht⟩ := Language.comes_iff.1 h
  obtain ⟨rfl, -⟩ := Prod.mk.inj ht
  exact ⟨t, rest, rfl, hkind⟩

/-- A choice by the next token. -/
theorem ite {kinds : List TokenKind} {texts : List String} {read' : List Token → Reading α}
    (h : Context.comes kinds texts tokens = true → Prompt read tokens)
    (h' : ¬ Context.comes kinds texts tokens = true → Prompt read' tokens) :
    Prompt (fun tokens => if Context.comes kinds texts tokens then read tokens else read' tokens)
      tokens := by
  by_cases hcomes : Context.comes kinds texts tokens = true
  · refine (h hcomes).congr fun tokens' hhead => ?_
    rw [comes_eq hhead, if_pos hcomes]
  · refine (h' hcomes).congr fun tokens' hhead => ?_
    rw [comes_eq hhead, if_neg hcomes]

/-- Going on behind a token that is no integer. -/
theorem cons {read' : List Token → Reading α} (h : Prompt read' rest) (hkind : t.kind ≠ .decimalInt)
    (heq : ∀ more, read (t :: more) = read' more) : Prompt read (t :: rest) := by
  unfold Prompt at h ⊢
  have hblocks : ∀ {front u}, Blocks read' front u → Blocks read (t :: front) u := by
    intro front u hblocks more
    rw [List.cons_append, heq]
    exact hblocks more
  rw [heq]
  generalize hread : read' rest = reading at h
  cases h with
  | ended found => exact .ended found
  | unexpected split found blocks =>
    exact .unexpected (congrArg (t :: ·) split) found (hblocks blocks)
  | unread split kind readable unreadable blocks =>
    exact .unread (congrArg (t :: ·) split) kind
      (readable_append.2 ⟨readable_singleton hkind, readable⟩) unreadable (hblocks blocks)
  | done split readable settled =>
    have hreadable := readable_append.2 ⟨readable_singleton hkind, readable⟩
    refine .done (congrArg (t :: ·) split) hreadable fun rest' hrest' => ?_
    exact (heq _).trans (settled rest' hrest')

variable (ctx : Context)

/-- The input ends where a token has to come. -/
theorem ended {problem : SyntaxProblem}
    (heq : read [] = .failed (ctx.problemAt problem none) []) : Prompt read [] := by
  unfold Prompt
  rw [heq]
  exact .ended rfl

/-- The first token cannot be there, whatever follows. -/
theorem unexpected {problem : SyntaxProblem} {behind : List Token → List Token}
    (heq : ∀ more, read (t :: more) = .failed (ctx.problemAt problem (some t)) (behind more)) :
    Prompt read (t :: rest) := by
  unfold Prompt
  rw [heq]
  have hblocks : Blocks read [] t := fun more => ⟨_, _, heq more⟩
  exact .unexpected rfl rfl hblocks

/-! ### The productions -/

theorem take {kinds : List TokenKind} {texts : List String} (h : .decimalInt ∉ kinds)
    (hne : kinds ≠ []) (tokens : List Token) : Prompt (ctx.take kinds texts) tokens := by
  cases tokens with
  | nil => exact ended ctx rfl
  | cons t rest =>
    by_cases hfits : t.fits kinds texts
    · have hkind : t.kind ≠ .decimalInt := by
        rintro hint
        simp [Token.fits, hne, hint, h] at hfits
      exact (done t rest).cons hkind fun more => if_pos hfits
    · exact unexpected ctx fun more => if_neg hfits

theorem readInt (tokens : List Token) : Prompt ctx.readInt tokens := by
  cases tokens with
  | nil => exact ended ctx rfl
  | cons t rest =>
    by_cases hkind : t.kind = .decimalInt
    · have htake : ∀ more, ctx.take [.decimalInt] [] (t :: more) = .done t more := by
        simp [Context.take, Token.fits, hkind]
      unfold Prompt
      cases hvalue : Decimal.readLiteral t.text with
      | ok value =>
        have hread : ∀ more, ctx.readInt (t :: more) = .done value more := by
          simp only [Context.readInt, htake, Reading.andThen, hvalue, implies_true]
        have hreadable : Readable [t] := by simp [Readable, hvalue]
        rw [hread]
        exact .done rfl hreadable fun rest' _ => hread rest'
      | error e =>
        have hread : ∀ more, ctx.readInt (t :: more) = .failed (.numeral e) more := by
          simp only [Context.readInt, htake, Reading.andThen, hvalue, implies_true]
        have hblocks : Blocks ctx.readInt [] t := fun more => ⟨_, _, hread more⟩
        rw [hread]
        exact .unread rfl hkind readable_nil hvalue hblocks
    · have hread : ∀ more, ctx.readInt (t :: more) =
          .failed (ctx.problemAt (.expected [.decimalInt] []) (some t)) (t :: more) := by
        simp [Context.readInt, Context.take, Token.fits, hkind, Reading.andThen]
      exact unexpected ctx hread

theorem readAttribute (tokens : List Token) : Prompt ctx.readAttribute tokens := by
  unfold Context.readAttribute
  refine (take ctx (by decide) (by decide) tokens).andThen fun _ rest _ => ?_
  refine (take ctx (by decide) (by decide) rest).andThen fun keyword rest _ => ?_
  refine (take ctx (by decide) (by decide) rest).andThen fun _ rest _ => ?_
  refine (readInt ctx rest).andThen fun value rest _ => ?_
  exact (take ctx (by decide) (by decide) rest).map _

theorem readAttributes (tokens : List Token) : Prompt ctx.readAttributes tokens := by
  induction hlength : tokens.length using Nat.strong_induction_on generalizing tokens with
  | _ n ih =>
    rw [funext Language.readAttributes_eq]
    refine .ite (fun _ => ?_) fun _ => done [] tokens
    refine (readAttribute ctx tokens).andThen fun node rest hread => ?_
    have hshorter := Context.length_lt_of_readAttribute hread
    exact (ih rest.length (hlength ▸ hshorter) rest rfl).map _

/-- A name is resolved before the next token is looked at. -/
theorem readNamed {read : List Token → Reading Node} (hkind : t.kind ≠ .decimalInt)
    (heq : ∀ more, read (t :: more) = ctx.readNamed t more) : Prompt read (t :: rest) := by
  cases hfind : ctx.scope.find? t.text with
  | some target =>
    refine (done (.reference target) rest).cons hkind fun more => ?_
    rw [heq, Context.readNamed, hfind]
  | none =>
    simp only [Context.readNamed, hfind] at heq
    exact unexpected ctx heq

section Brackets

variable (htype : ∀ rest : List Token, rest.length < tokens.length → Prompt ctx.readType rest)
include htype

theorem readTemplate : Prompt ctx.readTemplate tokens := by
  rw [funext Language.readTemplate_eq]
  refine (take ctx (by decide) (by decide) tokens).andThen fun _ rest hread => ?_
  refine (htype rest (Context.length_lt_of_take hread)).andThen fun element rest _ => ?_
  exact (take ctx (by decide) (by decide) rest).map _

theorem readArray : Prompt ctx.readArray tokens := by
  rw [funext Language.readArray_eq]
  refine (take ctx (by decide) (by decide) tokens).andThen fun _ rest hread => ?_
  refine (htype rest (Context.length_lt_of_take hread)).andThen fun element rest _ => ?_
  refine .ite (fun hcomes => ?_) fun _ => (take ctx (by decide) (by decide) rest).map _
  obtain ⟨t, more, rfl, hkind⟩ := exists_cons_of_comes (by decide) hcomes
  refine .cons ?_ hkind fun _ => rfl
  refine (readInt ctx more).andThen fun count rest _ => ?_
  exact (take ctx (by decide) (by decide) rest).map _

end Brackets

theorem readType (tokens : List Token) : Prompt ctx.readType tokens := by
  induction hlength : tokens.length using Nat.strong_induction_on generalizing tokens with
  | _ n ih =>
    cases tokens with
    | nil =>
      have hread : ctx.readType [] =
          .failed (ctx.problemAt (.expected [.keyword, .identifier] []) none) [] := by
        rw [Context.readType]
      exact ended ctx hread
    | cons t rest =>
      have htype : ∀ more : List Token, more.length < rest.length → Prompt ctx.readType more := by
        intro more hmore
        rw [List.length_cons] at hlength
        exact ih more.length (by omega) more rfl
      have hread : ∀ more, ctx.readType (t :: more) = _ := fun more => by rw [Context.readType]
      by_cases hidentifier : t.kind = .identifier
      · have hkind : t.kind ≠ .decimalInt := by simp [hidentifier]
        exact readNamed ctx hkind fun more => by rw [hread, hidentifier]
      by_cases hkeyword : t.kind = .keyword
      · have hkind : t.kind ≠ .decimalInt := by simp [hkeyword]
        simp only [hkeyword] at hread
        cases hname : TypeName.ofText? t.text with
        | none =>
          simp only [hname] at hread
          exact unexpected ctx hread
        | some name =>
          simp only [hname] at hread
          cases name with
          | array => exact (readArray ctx htype).cons hkind hread
          | scalar kind => exact (done (.scalar kind) rest).cons hkind hread
          | shaped shape letter =>
            cases letter with
            | none => exact ((readTemplate ctx htype).map shape.ofElement).cons hkind hread
            | some letter =>
              cases hscalar : shape.scalar? letter with
              | none =>
                simp only [hscalar] at hread
                exact unexpected ctx hread
              | some kind =>
                simp only [hscalar] at hread
                exact (done (shape.ofElement (.scalar kind)) rest).cons hkind hread
      · have hother : ∀ more, ctx.readType (t :: more) =
            .failed (ctx.problemAt (.expected [.keyword, .identifier] []) (some t)) (t :: more) := by
          intro more
          rw [hread]
          split
          · contradiction
          · contradiction
          · rfl
        exact unexpected ctx hother

/-! ### Declarations -/

theorem readMember (tokens : List Token) : Prompt ctx.readMember tokens := by
  unfold Context.readMember
  refine (readAttributes ctx tokens).andThen fun attributes rest _ => ?_
  cases rest with
  | nil =>
    refine (done none []).congr fun tokens' hhead => ?_
    rw [List.head?_eq_none_iff.1 hhead]
  | cons name rest =>
    by_cases hfits : name.fits [.identifier] [] = true
    · have hkind : name.kind ≠ .decimalInt := by
        intro hint
        simp [Token.fits, hint] at hfits
      refine .cons ?_ hkind fun more => if_pos hfits
      refine (take ctx (by decide) (by decide) rest).andThen fun _ rest _ => ?_
      exact (readType ctx rest).map _
    · refine (done none (name :: rest)).congr fun tokens' hhead => ?_
      obtain ⟨more, rfl⟩ := List.head?_eq_some_iff.1 hhead
      exact if_neg hfits

section Members

variable (hbody : ∀ rest : List Token, rest.length < tokens.length → Prompt ctx.readBody rest)
include hbody

theorem readMemberEnd (member : Member) : Prompt (ctx.readMemberEnd member) tokens := by
  unfold Context.readMemberEnd
  refine .ite (fun hcomes => ?_) fun _ => (take ctx (by decide) (by decide) tokens).map _
  obtain ⟨t, rest, rfl, hkind⟩ := exists_cons_of_comes (by decide) hcomes
  exact ((hbody rest (by simp)).map (member :: ·)).cons hkind fun _ => rfl

theorem readAttributesEnd (attributes : List Node) :
    Prompt (ctx.readAttributesEnd attributes) tokens := by
  unfold Context.readAttributesEnd
  refine .ite (fun _ => ?_) fun _ => (take ctx (by decide) (by decide) tokens).map _
  refine (take ctx (by decide) (by decide) tokens).andThen fun name rest₁ hname => ?_
  refine (take ctx (by decide) (by decide) rest₁).andThen fun _ rest₂ hcolon => ?_
  refine (readType ctx rest₂).andThen fun type rest₃ htype => ?_
  refine readMemberEnd ctx (fun rest hrest => hbody rest ?_) _
  have := Context.length_lt_of_take hname
  have := Context.length_lt_of_take hcolon
  have := Context.length_lt_of_readType rest₂ htype
  omega

end Members

theorem readBody (tokens : List Token) : Prompt ctx.readBody tokens := by
  induction hlength : tokens.length using Nat.strong_induction_on generalizing tokens with
  | _ n ih =>
    rw [funext ctx.readBody_eq]
    refine (readAttributes ctx tokens).andThen fun attributes rest hread => ?_
    have hshorter := Context.length_le_of_readAttributes hread
    exact readAttributesEnd ctx (fun more hmore => ih more.length (by omega) more rfl) attributes

/-- **A declaration is read promptly.** -/
theorem readStruct (tokens : List Token) : Prompt ctx.readStruct tokens := by
  have hnamed : ∀ tokens, Prompt (fun tokens =>
      (ctx.take [.identifier] [] tokens).andThen fun name rest =>
        (ctx.take [.punctuator] ["\x7b"] rest).andThen fun _ rest =>
          (ctx.readBody rest).map fun members => (⟨name.text, members⟩ : Struct)) tokens := by
    intro tokens
    refine (take ctx (by decide) (by decide) tokens).andThen fun name rest _ => ?_
    refine (take ctx (by decide) (by decide) rest).andThen fun _ rest _ => ?_
    exact (readBody ctx rest).map _
  by_cases hcomes : Context.comes [.keyword] ["struct"] tokens = true
  · obtain ⟨t, rest, rfl, hkind⟩ := exists_cons_of_comes (by decide) hcomes
    refine (hnamed rest).cons hkind fun more => ?_
    have hskip : Context.skipStruct (t :: more) = more := if_pos hcomes
    rw [Language.readStruct_eq, hskip]
  · refine (hnamed tokens).congr fun tokens' hhead => ?_
    rw [Language.readStruct_eq, Context.skipStruct, comes_eq hhead, if_neg hcomes]

end Prompt

end ShaderStruct.Grammar
