import ShaderStruct.Grammar
import ShaderStruct.Proofs.Grammar.Derivation
import ShaderStruct.Proofs.Grammar.Production

/-!
# Reading attributes

The tokens and integers that productions take, and the attributes in front of a member. Attributes
alone do not tell where they end, so they are read together with what comes behind them.
-/

namespace ShaderStruct.Grammar.Language

variable {α β : Type} {ctx : Context}

/-! ### Tokens and integers -/

def punctuator (text : String) : Language Token := one (·.word = mark text)

def identifier : Language Token := one (·.kind = .identifier)

def attributeName : Language Token := one fun t => ∃ name : AttributeName,
  t.word = (.keyword, name.text)

theorem starts_identifier : identifier.Starts (·.1 = .identifier) :=
  starts_one fun _ h => h

def numeral : Language Int := ofTrees (fun n : Numeral => [n.word]) fun n => some n.value

def tokenOf (w : Word) : Token := ⟨w.1, w.2, 0, 0, 0, ""⟩

theorem map_word_tokenOf (ws : List Word) : (ws.map tokenOf).map Token.word = ws := by
  rw [List.map_map]
  exact List.map_id ws

theorem live_punctuator (text : String) : (punctuator text).Live :=
  ⟨[tokenOf (mark text)], _, rfl, rfl⟩

theorem starts_punctuator (text : String) : (punctuator text).Starts (· = mark text) :=
  starts_one fun _ h => h

theorem starts_punctuator_ne {text other : String} (h : text ≠ other) :
    (punctuator text).Starts (· ≠ mark other) := by
  refine (starts_punctuator text).imp ?_
  rintro w rfl heq
  exact h (Prod.mk.inj heq).2

theorem live_attributeName : attributeName.Live :=
  ⟨[tokenOf (.keyword, AttributeName.align.text)], _, rfl, .align, rfl⟩

theorem live_ofTrees {τ : Type} {words : τ → List Word} {meaning : τ → Option α} {value : α}
    (tree : τ) (h : meaning tree = some value) : (ofTrees words meaning).Live :=
  ⟨(words tree).map tokenOf, value, tree, map_word_tokenOf _, h⟩

theorem reads_punctuator (text : String) (tokens : List Token) :
    (punctuator text).Reads tokens (ctx.take [.punctuator] [text] tokens) := by
  refine reads_take tokens ?_ ?_ ⟨tokenOf (mark text), rfl⟩
  · intro t
    simp [Token.word, mark, Token.fits]
  · intro t u hlike ht
    have hkind : u.kind ≠ .decimalInt := by
      rw [← hlike.1, (Prod.mk.inj ht).1]
      decide
    rw [← hlike.word_eq hkind]
    exact ht

theorem reads_identifier (tokens : List Token) :
    identifier.Reads tokens (ctx.take [.identifier] [] tokens) := by
  refine reads_take tokens ?_ ?_ ⟨tokenOf (.identifier, ""), rfl⟩
  · intro t
    simp [Token.fits]
  · intro t u hlike ht
    exact hlike.1.symm.trans ht

theorem reads_attributeName (tokens : List Token) :
    attributeName.Reads tokens (ctx.take [.keyword] ["align", "size"] tokens) := by
  refine reads_take tokens ?_ ?_ ⟨tokenOf (.keyword, AttributeName.align.text), .align, rfl⟩
  · intro t
    constructor
    · rintro ⟨name, hword⟩
      obtain ⟨hkind, htext⟩ := Prod.mk.inj hword
      cases name <;> simp [Token.fits, hkind, htext, AttributeName.text]
    · intro hfits
      simp only [Token.fits, List.isEmpty_cons, Bool.false_or, Bool.and_eq_true,
        List.contains_iff_mem, List.mem_cons, List.not_mem_nil, or_false] at hfits
      obtain ⟨hkind, htext | htext⟩ := hfits
      · exact ⟨.align, by rw [Token.word, hkind, htext]; rfl⟩
      · exact ⟨.size, by rw [Token.word, hkind, htext]; rfl⟩
  · rintro t u hlike ⟨name, ht⟩
    have hkind : u.kind ≠ .decimalInt := by
      rw [← hlike.1, (Prod.mk.inj ht).1]
      decide
    exact ⟨name, by rw [← hlike.word_eq hkind]; exact ht⟩

theorem numeral_iff {used : List Token} {value : Int} :
    numeral used value ↔ ∃ t n, used = [t] ∧ t.word = Numeral.word n ∧ (n.value : Int) = value := by
  constructor
  · rintro ⟨n, hused, hvalue⟩
    obtain ⟨t, rfl, ht⟩ := List.map_eq_singleton_iff.1 hused
    exact ⟨t, n, rfl, ht, Option.some.inj hvalue⟩
  · rintro ⟨t, n, rfl, ht, rfl⟩
    exact ⟨n, by rw [List.map_singleton, ht], rfl⟩

theorem prefixFree_numeral : numeral.PrefixFree :=
  prefixFree_ofTrees fun h => by simpa [Numeral.word_inj] using h

theorem live_numeral : numeral.Live :=
  live_ofTrees ⟨0, .none, by decide⟩ rfl

theorem not_numeral_nil (value : Int) : ¬ numeral [] value := by
  rintro ⟨n, hused, -⟩
  cases hused

/-- The parser takes the integers that are short enough, and stops at any other. -/
theorem reads_readInt (tokens : List Token) : numeral.Reads tokens (ctx.readInt tokens) := by
  cases tokens with
  | nil => exact .ended live_numeral rfl not_numeral_nil
  | cons t rest =>
    by_cases hkind : t.kind = .decimalInt
    · have htake : ctx.take [.decimalInt] [] (t :: rest) = .done t rest := by
        simp [Context.take, Token.fits, hkind]
      intro hscanned
      obtain ⟨value, suffix, htext⟩ := hscanned t List.mem_cons_self hkind
      have hword : t.word = (.decimalInt, Decimal.literal value suffix) := by
        rw [Token.word, hkind, htext]
      rw [Context.readInt, htake, Reading.andThen, htext, Decimal.readLiteral_literal]
      by_cases hlong : Decimal.digitLimit < value.repr.length
      · rw [if_pos hlong]
        refine ⟨[], t :: rest, rfl, live_numeral, .tooLong hword hlong ?_ ?_⟩
        · let zero : Numeral := ⟨0, .none, by decide⟩
          exact ⟨tokenOf zero.word, 0, .none, rfl, zero.short, [], 0, zero, rfl, rfl⟩
        · intro after used v more hused heq
          obtain ⟨u, n, rfl, hu, -⟩ := numeral_iff.1 hused
          obtain rfl : u = t := (List.cons.inj heq).1
          have hliteral := (Prod.mk.inj (hu.symm.trans hword)).2
          rw [Decimal.literal_inj] at hliteral
          rw [← hliteral.1] at hlong
          exact Nat.not_lt.2 n.short hlong
      · rw [if_neg hlong]
        exact ⟨[t], rfl, numeral_iff.2 ⟨t, ⟨value, suffix, Nat.not_lt.1 hlong⟩, rfl, hword, rfl⟩⟩
    · have htake : ctx.take [.decimalInt] [] (t :: rest) =
          .failed (ctx.problemAt (.expected [.decimalInt] []) (some t)) (t :: rest) := by
        simp [Context.take, Token.fits, hkind]
      rw [Context.readInt, htake]
      refine .unexpected live_numeral rfl ?_ not_numeral_nil
      intro u used value hlike hused
      obtain ⟨v, n, heq, hv, -⟩ := numeral_iff.1 hused
      obtain rfl := (List.cons.inj heq).1
      exact hkind (hlike.1.symm.trans (Prod.mk.inj hv).1)

/-! ### Attributes -/

def attributeItem : Language Node := ofTrees AttributeTree.words fun a => some a.meaning

def attributeList : Language (List Node) :=
  ofTrees (List.flatMap AttributeTree.words) fun as => some (as.map AttributeTree.meaning)

/-- The words of an attribute, one behind the other. -/
theorem attributeItem_iff {used : List Token} {value : Node} :
    attributeItem used value ↔
      ((punctuator "@").seq fun _ => attributeName.seq fun keyword =>
        (punctuator "(").seq fun _ => numeral.seq fun n => (punctuator ")").map fun _ =>
          if keyword.text = "align" then .align n else .size n) used value := by
  constructor
  · rintro ⟨⟨name, n⟩, hused, hvalue⟩
    simp only [AttributeTree.words, List.map_eq_cons_iff, List.map_eq_nil_iff] at hused
    obtain ⟨t₁, _, rfl, h₁, t₂, _, rfl, h₂, t₃, _, rfl, h₃, t₄, _, rfl, h₄, t₅, _, rfl, h₅, rfl⟩ :=
      hused
    refine seq_one_iff.2 ⟨t₁, _, rfl, h₁, seq_one_iff.2 ⟨t₂, _, rfl, ⟨name, h₂⟩,
      seq_one_iff.2 ⟨t₃, _, rfl, h₃, [t₄], [t₅], n.value, rfl, numeral_iff.2 ⟨t₄, n, rfl, h₄, rfl⟩,
      map_one_iff.2 ⟨t₅, rfl, h₅, ?_⟩⟩⟩⟩
    rw [(Prod.mk.inj h₂).2]
    cases name <;> exact Option.some.inj hvalue
  · intro h
    obtain ⟨t₁, _, rfl, h₁, h⟩ := seq_one_iff.1 h
    obtain ⟨t₂, _, rfl, ⟨name, h₂⟩, h⟩ := seq_one_iff.1 h
    obtain ⟨t₃, _, rfl, h₃, _, _, _, rfl, hn, h⟩ := seq_one_iff.1 h
    obtain ⟨t₄, n, rfl, h₄, rfl⟩ := numeral_iff.1 hn
    obtain ⟨t₅, rfl, h₅, rfl⟩ := map_one_iff.1 h
    refine ⟨⟨name, n⟩, by simp [AttributeTree.words, h₁, h₂, h₃, h₄, h₅], ?_⟩
    rw [(Prod.mk.inj h₂).2]
    cases name <;> rfl

theorem prefixFree_attributeItem : attributeItem.PrefixFree :=
  prefixFree_ofTrees AttributeTree.words_append_inj

theorem starts_attributeItem : attributeItem.Starts (· = mark "@") := by
  intro used a hused
  obtain ⟨t, rest, rfl, ht, -⟩ := seq_one_iff.1 (attributeItem_iff.1 hused)
  exact ⟨t, rest, rfl, ht⟩

theorem reads_readAttribute (tokens : List Token) :
    attributeItem.Reads tokens (ctx.readAttribute tokens) := by
  refine Reads.congr ?_ fun _ _ => attributeItem_iff
  have hvalue : ∀ f : Int → Token → Node,
      (numeral.seq fun n => (punctuator ")").map (f n)).Live :=
    fun f => live_numeral.seq fun n => (live_punctuator ")").map
  refine (reads_punctuator "@" tokens).andThen (prefixFree_one _) ?_ ?_
  · exact fun _ => live_attributeName.seq fun _ => (live_punctuator "(").seq fun _ => hvalue _
  intro _ _ rest _ _
  refine (reads_attributeName rest).andThen (prefixFree_one _) ?_ ?_
  · exact fun _ => (live_punctuator "(").seq fun _ => hvalue _
  intro _ _ rest _ _
  refine (reads_punctuator "(" rest).andThen (prefixFree_one _) (fun _ => hvalue _) ?_
  intro _ _ rest _ _
  refine (reads_readInt rest).andThen prefixFree_numeral (fun _ => (live_punctuator ")").map) ?_
  intro _ _ rest _ _
  exact (reads_punctuator ")" rest).map _

/-- Attributes are one attribute and others behind it, or none. -/
theorem attributeList_seq_iff {K : List Node → Language β} {used : List Token} {value : β} :
    attributeList.seq K used value ↔
      ((attributeItem.seq fun a => attributeList.seq fun as => K (a :: as)).alt (K [])) used value := by
  constructor
  · rintro ⟨first, second, _, rfl, ⟨as, hfirst, hvalue⟩, hsecond⟩
    obtain rfl := Option.some.inj hvalue
    cases as with
    | nil =>
      obtain rfl := List.map_eq_nil_iff.1 hfirst
      exact Or.inr hsecond
    | cons a as =>
      obtain ⟨front, back, rfl, hfront, hback⟩ := List.map_eq_append_iff.1 hfirst
      refine Or.inl ⟨front, back ++ second, a.meaning, List.append_assoc .., ⟨a, hfront, rfl⟩, ?_⟩
      exact ⟨back, second, _, rfl, ⟨as, hback, rfl⟩, hsecond⟩
  · rintro (⟨front, _, _, rfl, ⟨a, hfront, hvalue⟩, back, second, _, rfl,
      ⟨as, hback, hvalues⟩, hsecond⟩ | hsecond)
    · obtain rfl := Option.some.inj hvalue
      obtain rfl := Option.some.inj hvalues
      refine ⟨front ++ back, second, _, (List.append_assoc ..).symm, ⟨a :: as, ?_, rfl⟩, hsecond⟩
      rw [List.map_append, hfront, hback, List.flatMap_cons]
    · exact ⟨[], used, [], rfl, ⟨[], rfl, rfl⟩, hsecond⟩

theorem live_attributeList : attributeList.Live :=
  live_ofTrees [] rfl

theorem readAttributes_eq (tokens : List Token) :
    ctx.readAttributes tokens =
      if Context.comes [.punctuator] ["@"] tokens then
        (ctx.readAttribute tokens).andThen fun a rest => (ctx.readAttributes rest).map (a :: ·)
      else .done [] tokens := by
  rw [Context.readAttributes]
  split
  · split
    · next h => rw [h, Reading.andThen]
    · next h => rw [h, Reading.andThen]
  · rfl

/-- Reading on where the attributes end, if no other attribute can follow. -/
theorem reads_readAttributes {K : List Node → Language β}
    {next : List Node → List Token → Reading β} (tokens : List Token)
    (hstarts : ∀ as, (K as).Starts (· ≠ mark "@")) (hlive : ∀ as, (K as).Live)
    (hnext : ∀ as rest, rest.length ≤ tokens.length → (K as).Reads rest (next as rest)) :
    (attributeList.seq K).Reads tokens ((ctx.readAttributes tokens).andThen next) := by
  induction hlength : tokens.length using Nat.strong_induction_on generalizing tokens K next with
  | _ n ih =>
    refine Reads.congr ?_ fun _ _ => attributeList_seq_iff
    rw [readAttributes_eq]
    by_cases hcomes : Context.comes [.punctuator] ["@"] tokens
    · rw [if_pos hcomes, Reading.andThen_assoc]
      simp only [Reading.map_andThen]
      refine Reads.alt ?_ (apart_of_comes hcomes (by decide) (hstarts []))
      refine (reads_readAttribute tokens).andThen prefixFree_attributeItem ?_ ?_
      · exact fun a => live_attributeList.seq fun as => hlive (a :: as)
      intro used a rest heq hused
      have hshorter := starts_attributeItem.length_lt hused heq
      refine ih rest.length (hlength ▸ hshorter) rest (fun as => hstarts (a :: as))
        (fun as => hlive (a :: as)) ?_ rfl
      intro as behind hbehind
      exact hnext (a :: as) behind (by omega)
    · rw [if_neg hcomes]
      refine Reads.congr (Reads.alt (hnext [] tokens (Nat.le_refl _)) ?_) fun _ _ => Or.comm
      exact apart_of_not_comes hcomes (by decide) starts_attributeItem.seq

end ShaderStruct.Grammar.Language
