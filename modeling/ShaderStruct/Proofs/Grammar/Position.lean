import ShaderStruct.Proofs.Grammar.Blame
import ShaderStruct.Proofs.Grammar.Lookahead
import ShaderStruct.Proofs.Grammar.SameWords

/-!
# Productions at a cursor

One cursor is moved by all productions. Each moves it forward over what it reads, at most to the end
of the tokens, and changes nothing else. What a production returns is decided by the tokens that the
cursor has passed and the one it has come to, so a later production can go on from there as if it
were the first. Where a production fails, the position tells what the failure is about: the token
that the cursor has come to if that is not the one that has to come, and otherwise the token that it
has just passed.

This holds of any tokens, also of those that no text has, and of any position, also of one beyond
the last token.
-/

namespace ShaderStruct

namespace Cursor

variable {c : Cursor} {used left : List Token}

theorem getElem?_rest (c : Cursor) (i : Nat) : c.rest[i]? = c.tokens[c.position + i]? :=
  List.getElem?_drop

theorem current_eq_none_iff (c : Cursor) : c.current = none ↔ c.atEnd = true := by
  rw [current, List.head?_eq_none_iff, rest, List.drop_eq_nil_iff, atEnd, decide_eq_true_eq]

theorem position_leave (h : c.rest = used ++ left) :
    (c.leave left).position = c.position + used.length := by
  rw [leave, h, List.length_append, Nat.add_sub_cancel]

theorem rest_leave (h : c.rest = used ++ left) : (c.leave left).rest = left := by
  have hdrop : c.tokens.drop (c.position + used.length) = c.rest.drop used.length := by
    rw [rest, List.drop_drop]
  rw [rest, position_leave h]
  change c.tokens.drop (c.position + used.length) = left
  rw [hdrop, h, List.drop_left]

def PassedLast (c after : Cursor) (t : Token) : Prop :=
  ∃ i, c.position ≤ i ∧ after.position = i + 1 ∧ c.tokens[i]? = some t

theorem passedLast_leave {t : Token} (h : c.rest = used ++ t :: left) :
    c.PassedLast (c.leave left) t := by
  have hsplit : c.rest = (used ++ [t]) ++ left := by
    rw [h, List.append_assoc, List.singleton_append]
  refine ⟨c.position + used.length, Nat.le_add_right _ _, ?_, ?_⟩
  · rw [position_leave hsplit, List.length_append, List.length_singleton, Nat.add_assoc]
  · rw [← getElem?_rest, h, List.getElem?_append_right (Nat.le_refl _), Nat.sub_self]
    rfl

inductive StoppedBy (c after : Cursor) : Failure → Prop where
  /-- The token that the cursor has come to is none of those that have to come, or it has come to
  the end. -/
  | coming {e : SyntaxError} (expected : e.problem.expectedKinds ≠ [])
    (found : e.found = after.current) (ended : e.found = none ↔ after.atEnd = true) :
    StoppedBy c after (.syntactic e)
  /-- Nothing can be made of the token that the cursor has just passed. -/
  | passed {e : SyntaxError} {t : Token} (unexpected : e.problem.expectedKinds = [])
    (found : e.found = some t) (last : c.PassedLast after t) : StoppedBy c after (.syntactic e)
  | unread {e : NumeralError} {t : Token} (kind : t.kind = .decimalInt)
    (unreadable : Decimal.readLiteral t.text = .error e) (last : c.PassedLast after t) :
    StoppedBy c after (.numeral e)

theorem stoppedBy_leave {ctx : Context} {failure : Failure}
    (h : Grammar.Blames ctx c.rest failure left) : c.StoppedBy (c.leave left) failure := by
  cases h with
  | expected named split =>
    have hcurrent : (c.leave left).current = left.head? := by rw [current, rest_leave split]
    refine .coming named hcurrent.symm ?_
    rw [← current_eq_none_iff, hcurrent]
  | notAType split => exact .passed rfl rfl (passedLast_leave split)
  | invalidShorthand split => exact .passed rfl rfl (passedLast_leave split)
  | unknownType split kind unknown => exact .passed rfl rfl (passedLast_leave split)
  | unread split kind unreadable => exact .unread kind unreadable (passedLast_leave split)

end Cursor

namespace Grammar

structure Disciplined {α : Type} (production : Context → List Token → Reading α) : Prop where
  unchanged : ∀ c : Cursor,
    (c.run production).2 = { c with position := (c.run production).2.position }
  forward : ∀ c : Cursor, c.position ≤ (c.run production).2.position
  bounded : ∀ c : Cursor, (c.run production).2.position ≤ max c.position c.tokens.length
  /-- The tokens that it leaves are the last of those before the cursor, and the cursor has come to
  the first of them. -/
  leaves : ∀ c : Cursor, ∃ used, c.rest = used ++ (production c.context c.rest).rest ∧
    (c.run production).2.rest = (production c.context c.rest).rest
  /-- Among other tokens that are the same as far as the production looks, and with the same
  declarations known, it returns the same and comes to the same position. -/
  settled : ∀ {c after : Cursor} {value : α}, c.run production = (.ok value, after) →
    ∀ c' : Cursor, c'.context.scope.known = c.context.scope.known → c'.position = c.position →
      (∀ i, c.position ≤ i → i ≤ after.position → c'.tokens[i]? = c.tokens[i]?) →
        c'.run production = (.ok value, { c' with position := after.position })
  stopped : ∀ {c after : Cursor} {failure : Failure}, c.run production = (.error failure, after) →
    c.StoppedBy after failure

variable {α : Type} {production : Context → List Token → Reading α}

theorem run_eq_ok_iff {c after : Cursor} {value : α} :
    c.run production = (.ok value, after) ↔
      ∃ left, production c.context c.rest = .done value left ∧ c.leave left = after := by
  rw [Cursor.run]
  cases production c.context c.rest <;> simp [and_assoc]

theorem run_eq_error_iff {c after : Cursor} {failure : Failure} :
    c.run production = (.error failure, after) ↔
      ∃ left, production c.context c.rest = .failed failure left ∧ c.leave left = after := by
  rw [Cursor.run]
  cases production c.context c.rest <;> simp [and_assoc]

/-- Tokens that agree with a front and with the token behind it have the same front. -/
theorem exists_rest_of_agree {tokens used rest : List Token}
    (h : ∀ i ≤ used.length, tokens[i]? = (used ++ rest)[i]?) :
    ∃ rest', tokens = used ++ rest' ∧ rest'.head? = rest.head? := by
  refine ⟨tokens.drop used.length, ?_, ?_⟩
  · have hfront : tokens.take used.length = used := by
      apply List.ext_getElem?
      intro i
      by_cases hi : i < used.length
      · rw [List.getElem?_take_of_lt hi, h i (Nat.le_of_lt hi), List.getElem?_append_left hi]
      · have hle := Nat.le_of_not_lt hi
        rw [List.getElem?_take_eq_none hle, List.getElem?_eq_none hle]
    calc tokens = tokens.take used.length ++ tokens.drop used.length :=
          (List.take_append_drop ..).symm
      _ = used ++ tokens.drop used.length := by rw [hfront]
  · rw [List.head?_drop, h _ (Nat.le_refl _), List.getElem?_append_right (Nat.le_refl _),
      Nat.sub_self, List.head?_eq_getElem?]

theorem Cursor.run_snd (c : Cursor) :
    (c.run production).2 = c.leave (production c.context c.rest).rest := by
  rw [Cursor.run]
  cases production c.context c.rest <;> rfl

/-- What a prompt production returns does not depend on tokens that it has not come to. -/
theorem run_eq_of_agree (hprompt : ∀ ctx tokens, Prompt (production ctx) tokens)
    (hblind : Blind production) {c after c' : Cursor} {value : α}
    (hrun : c.run production = (.ok value, after))
    (hknown : c'.context.scope.known = c.context.scope.known) (hposition : c'.position = c.position)
    (hagree : ∀ i, c.position ≤ i → i ≤ after.position → c'.tokens[i]? = c.tokens[i]?) :
    c'.run production = (.ok value, { c' with position := after.position }) := by
  obtain ⟨left, hread, rfl⟩ := run_eq_ok_iff.1 hrun
  have howes := hprompt c.context c.rest
  unfold Prompt at howes
  rw [hread] at howes
  obtain @⟨_, used, _, hsplit, -, hsettled⟩ := howes
  have hafter := Cursor.position_leave hsplit
  obtain ⟨left', hsplit', hhead⟩ : ∃ left', c'.rest = used ++ left' ∧ left'.head? = left.head? := by
    apply exists_rest_of_agree
    intro i hi
    rw [Cursor.getElem?_rest, hposition, ← hsplit, Cursor.getElem?_rest]
    apply hagree _ (Nat.le_add_right _ _)
    omega
  -- the tokens change first, then what is told of a failure, which a success does not depend on
  have hsame : ({ c' with context := c.context } : Cursor).run production =
      (.ok value, ({ c' with context := c.context } : Cursor).leave left') := by
    apply run_eq_ok_iff.2
    refine ⟨left', ?_, rfl⟩
    change production c.context c'.rest = _
    rw [hsplit']
    exact hsettled left' hhead
  obtain ⟨hresult, hmoved⟩ := hblind { c' with context := c.context } c' hknown.symm rfl rfl
  rw [hsame] at hresult hmoved
  have hposition' : (c'.run production).2.position = (c.leave left).position := by
    rw [← hmoved, hafter, ← hposition]
    exact Cursor.position_leave hsplit'
  have hunchanged : (c'.run production).2 =
      { c' with position := (c'.run production).2.position } := by
    rw [Cursor.run_snd]
    rfl
  rw [hposition'] at hunchanged
  generalize c'.run production = outcome at hresult hunchanged ⊢
  obtain ⟨result, after'⟩ := outcome
  cases hresult with
  | ok hvalue =>
    simp only at hunchanged
    rw [← hvalue, hunchanged]

/-- A production that settles what it is given, promptly and by words alone, is disciplined. -/
theorem disciplined_of_prompt
    (hsettles : ∀ ctx tokens, Settles ctx (fun _ => True) tokens (production ctx tokens))
    (hprompt : ∀ ctx tokens, Prompt (production ctx) tokens) (hblind : Blind production) :
    Disciplined production where
  unchanged := by
    intro c
    rw [Cursor.run_snd]
    rfl
  forward := by
    intro c
    rw [Cursor.run_snd]
    exact Nat.le_add_right _ _
  bounded := by
    intro c
    obtain ⟨used, hsplit⟩ := (hsettles c.context c.rest).exists_split
    have hlength := congrArg List.length hsplit
    rw [Cursor.rest, List.length_drop, List.length_append] at hlength
    rw [Cursor.run_snd, Cursor.position_leave hsplit]
    omega
  leaves := by
    intro c
    obtain ⟨used, hsplit⟩ := (hsettles c.context c.rest).exists_split
    refine ⟨used, hsplit, ?_⟩
    rw [Cursor.run_snd, Cursor.rest_leave hsplit]
  settled := fun hrun c' => run_eq_of_agree hprompt hblind hrun
  stopped := by
    intro c after failure hrun
    obtain ⟨left, hread, rfl⟩ := run_eq_error_iff.1 hrun
    have h := hsettles c.context c.rest
    rw [hread] at h
    obtain _ | hblames := h
    exact Cursor.stoppedBy_leave hblames

/-- **Every production is disciplined.** It moves the cursor forward, at most to the end of the
tokens, so that what it has not read is before the cursor, and leaves the tokens and what is known
as they are. Its result depends on the tokens it has passed and the one it has come to. If it fails
because another token has to come, that is about the token it has come to or the end, and any other
failure is about the token it has passed last. -/
theorem productions_disciplined :
    Disciplined Context.readType ∧ Disciplined Context.readTemplate ∧
      Disciplined Context.readArray ∧ Disciplined Context.readInt ∧
      Disciplined Context.readAttributes ∧ Disciplined Context.readMember ∧
      Disciplined Context.readStruct := by
  refine ⟨?_, ?_, ?_, ?_, ?_, ?_, ?_⟩
  · exact disciplined_of_prompt Settles.readType Prompt.readType blind_readType
  · exact disciplined_of_prompt (fun ctx _ => .readTemplate ctx fun rest _ => .readType ctx rest)
      (fun ctx _ => .readTemplate ctx fun rest _ => .readType ctx rest) blind_readTemplate
  · exact disciplined_of_prompt (fun ctx _ => .readArray ctx fun rest _ => .readType ctx rest)
      (fun ctx _ => .readArray ctx fun rest _ => .readType ctx rest) blind_readArray
  · exact disciplined_of_prompt Settles.readInt Prompt.readInt blind_readInt
  · exact disciplined_of_prompt Settles.readAttributes Prompt.readAttributes blind_readAttributes
  · exact disciplined_of_prompt Settles.readMember Prompt.readMember blind_readMember
  · exact disciplined_of_prompt Settles.readStruct Prompt.readStruct blind_readStruct

end Grammar

end ShaderStruct
