import Mathlib.Data.List.Nodup
import ShaderStruct.Cursor
import ShaderStruct.Proofs.Grammar.Lookahead
import ShaderStruct.Proofs.Grammar.SameWords
import ShaderStruct.Proofs.Partition

/-!
# Early errors

A syntax error is told at the earliest token that could tell it. What stands in front of the token
can be completed to a declaration, and with the token it cannot, whatever tokens follow, also ones
that no text has. An integer that is too long to be read is such a token too: what is in front of it
can be completed with a shorter one.
-/

namespace ShaderStruct.Grammar

/-- The tokens are those of one declaration. Where they stand in which source matters only to what
failures say. -/
def Accepted (scope : Scope) (tokens : List Token) : Prop :=
  ∃ decl, (Context.ofTokens scope "" tokens).readStruct tokens = .done decl []

/-- Where a cursor stands when the declaration in front of it has been read, or has turned out not
to be one. -/
def stoppedAt (scope : Scope) (source : String) (tokens : List Token) : Nat :=
  ((Cursor.ofTokens scope source tokens 0).run Context.readStruct).2.position

/-- The index of the token that a failure is about: the one it names, the one behind the last if it
names none, and the integer just read if that was too long. -/
inductive OffendsAt (tokens : List Token) (stopped : Nat) : Failure → Nat → Prop where
  | found {e : SyntaxError} {t : Token} {i : Nat} (found : e.found = some t)
    (here : tokens[i]? = some t) : OffendsAt tokens stopped (.syntactic e) i
  | ended {e : SyntaxError} (found : e.found = none) :
    OffendsAt tokens stopped (.syntactic e) tokens.length
  | numeral {e : NumeralError} {t : Token} {i : Nat} (here : tokens[i]? = some t)
    (kind : t.kind = .decimalInt) (behind : stopped = i + 1) :
    OffendsAt tokens stopped (.numeral e) i

variable {scope : Scope} {ctx : Context} {tokens used before after front rest : List Token}
  {t u : Token}

/-- A failure is about one index only. -/
theorem OffendsAt.eq {stopped i j : Nat} {failure : Failure} (hnodup : tokens.Nodup)
    (h : OffendsAt tokens stopped failure i) (h' : OffendsAt tokens stopped failure j) : i = j := by
  cases h with
  | found found here =>
    cases h' with
    | found found' here' =>
      obtain rfl := Option.some.inj (found.symm.trans found')
      obtain ⟨hi, -⟩ := List.getElem?_eq_some_iff.1 here
      exact (List.getElem?_inj hi hnodup).1 (here.trans here'.symm)
    | ended found' => cases found.symm.trans found'
  | ended found =>
    cases h' with
    | found found' here' => cases found.symm.trans found'
    | ended found' => rfl
  | numeral here kind behind =>
    cases h' with
    | numeral here' kind' behind' => exact Nat.succ.inj (behind.symm.trans behind')

/-! ### Accepted tokens -/

/-- Tokens are accepted exactly if they are read to their end. -/
theorem accepted_iff : Accepted ctx.scope tokens ↔ ∃ decl, ctx.readStruct tokens = .done decl [] := by
  have hscope : (Context.ofTokens ctx.scope "" tokens).scope.known = ctx.scope.known := rfl
  have hsame : List.Forall₂ sameWords.token tokens tokens := forall₂_sameWords_iff.2 rfl
  have hlike := (like_sameWords hscope).readStruct hsame
  rw [Accepted]
  generalize (Context.ofTokens ctx.scope "" tokens).readStruct tokens = reading at hlike ⊢
  generalize ctx.readStruct tokens = reading' at hlike ⊢
  cases hlike with
  | failed => simp
  | done hdecl hrest =>
    obtain rfl := hdecl.eq
    have hnil := hrest.length_eq
    simp [← List.length_eq_zero_iff, hnil]

theorem Language.terminal_of_structIn {decl : Struct} (h : structIn scope used decl)
    (ht : t ∈ used) : Terminal t.word := by
  obtain ⟨tree, hwords, -⟩ := h
  exact tree.terminal_of_mem _ (hwords ▸ List.mem_map_of_mem ht)

theorem Language.scanned_of_structIn {decl : Struct} (h : structIn scope used decl) :
    Scanned used := by
  intro t ht hkind
  obtain ⟨n, hn⟩ := (terminal_of_structIn h ht).exists_numeral hkind
  exact ⟨n.value, n.suffix, (Prod.mk.inj hn).2⟩

/-- What begins a declaration can be completed. -/
theorem Language.Viable.exists_accepted (h : (structIn scope).Viable before) :
    ∃ more, Accepted scope (before ++ more) := by
  obtain ⟨more, decl, hstruct⟩ := h
  have hscanned := scanned_of_structIn hstruct
  obtain ⟨tree, hwords, hdecl⟩ := hstruct
  rw [← List.append_nil (before ++ more)] at hscanned
  have hread : (Context.ofTokens scope "" (before ++ more)).readStruct (before ++ more ++ []) =
      .done decl [] := readStruct_append hscanned ⟨tree, hwords.symm, hdecl⟩
  rw [List.append_nil] at hread
  exact ⟨more, decl, hread⟩

theorem Language.Viable.readable (h : (structIn scope).Viable before) : Readable before := by
  obtain ⟨more, decl, hstruct⟩ := h
  intro t ht hkind
  obtain ⟨n, hn⟩ :=
    (terminal_of_structIn hstruct (List.mem_append_left more ht)).exists_numeral hkind
  obtain ⟨-, htext⟩ := Prod.mk.inj hn
  refine ⟨n.value, ?_⟩
  rw [htext, Decimal.readLiteral_literal, if_neg (Nat.not_lt.2 n.short)]

/-! ### The offending token -/

/-- The tokens in front of an index can be completed to accepted ones. With the token there, if
there is one, they cannot. -/
structure Parts (scope : Scope) (tokens : List Token) (i : Nat) : Prop where
  completes : ∃ more, Accepted scope (tokens.take i ++ more)
  blocked : i < tokens.length → ∀ more, ¬ Accepted scope (tokens.take (i + 1) ++ more)

theorem parts_of_blocked (hviable : (Language.structIn scope).Viable before)
    (hblocked : ∀ more, ¬ Accepted scope (before ++ t :: more)) :
    Parts scope (before ++ t :: after) before.length := by
  constructor
  · rw [List.take_left]
    exact hviable.exists_accepted
  · intro _ more
    rw [List.take_length_add_append, List.append_assoc]
    exact hblocked more

theorem parts_of_ended (hviable : (Language.structIn scope).Viable tokens) :
    Parts scope tokens tokens.length := by
  constructor
  · rw [List.take_length]
    exact hviable.exists_accepted
  · intro hlt
    exact absurd hlt (Nat.lt_irrefl _)

theorem not_accepted_of_blocks (h : Blocks ctx.readStruct front t) (more : List Token) :
    ¬ Accepted ctx.scope (front ++ t :: more) := by
  rw [accepted_iff]
  rintro ⟨decl, hdone⟩
  obtain ⟨failure, rest, hfailed⟩ := h more
  cases hdone.symm.trans hfailed

/-- The first integer that cannot be read is one token. -/
theorem eq_of_unreadable (hfront : Readable front) (hbefore : Readable before)
    (ht : ¬ Readable [t]) (hu : ¬ Readable [u])
    (heq : front ++ t :: rest = before ++ u :: after) : front = before := by
  rcases List.append_eq_append_iff.1 heq with ⟨more, rfl, hrest⟩ | ⟨more, rfl, hrest⟩
  · cases more with
    | nil => rw [List.append_nil]
    | cons v more =>
      obtain ⟨rfl, -⟩ := List.cons.inj hrest
      rw [List.append_cons, readable_append, readable_append] at hbefore
      exact absurd hbefore.1.2 ht
  · cases more with
    | nil => rw [List.append_nil]
    | cons v more =>
      obtain ⟨rfl, -⟩ := List.cons.inj hrest
      rw [List.append_cons, readable_append, readable_append] at hfront
      exact absurd hfront.1.2 hu

theorem not_readable_of_error {e : NumeralError} (hkind : t.kind = .decimalInt)
    (herror : Decimal.readLiteral t.text = .error e) : ¬ Readable [t] := by
  intro h
  obtain ⟨value, hvalue⟩ := h t List.mem_cons_self hkind
  cases hvalue.symm.trans herror

theorem stoppedAt_eq (scope : Scope) (source : String) (tokens : List Token) :
    stoppedAt scope source tokens =
      tokens.length - ((Context.ofTokens scope source tokens).readStruct tokens).rest.length := by
  have hrest : (Cursor.ofTokens scope source tokens 0).rest = tokens := rfl
  have hcontext : (Cursor.ofTokens scope source tokens 0).context =
      .ofTokens scope source tokens := rfl
  rw [stoppedAt, Cursor.run, hrest, hcontext]
  split
  · next h => rw [h, Cursor.leave, hrest]; exact Nat.zero_add _
  · next h => rw [h, Cursor.leave, hrest]; exact Nat.zero_add _

theorem nodup_of_tokenize {source filename : String} (h : tokenize source filename = .ok tokens) :
    tokens.Nodup := by
  obtain ⟨pieces, last, htokens, -, hpieces⟩ :=
    Scanner.exists_partition (Scanner.sound_ofSource source filename)
  obtain rfl := Except.ok.inj (h.symm.trans htokens)
  exact hpieces.nodup

/-- A reading that fails has an offending token, or has come to the end. -/
theorem exists_parts_of_failed {failure : Failure} (hscanned : Scanned tokens)
    (hnodup : tokens.Nodup) (h : ctx.readStruct tokens = .failed failure rest) :
    ∃ i, OffendsAt tokens (tokens.length - rest.length) failure i ∧ Parts ctx.scope tokens i := by
  have hreads : (Language.structIn ctx.scope).Reads tokens (ctx.readStruct tokens) :=
    Language.reads_readStruct tokens
  have hdescribes := hreads hscanned
  have howes : Owes ctx.readStruct tokens (ctx.readStruct tokens) := Prompt.readStruct ctx tokens
  rw [h] at hdescribes howes
  obtain ⟨before, after, hsplit, hviable, hstops⟩ := hdescribes
  cases howes with
  | ended hnone =>
    cases hstops with
    | ended _ _ =>
      rw [List.append_nil] at hsplit
      subst hsplit
      exact ⟨_, .ended hnone, parts_of_ended hviable⟩
    | unexpected found _ => cases hnone.symm.trans found
  | @unexpected _ front more _ t hfront found blocks =>
    cases hstops with
    | ended hnone _ => cases hnone.symm.trans found
    | @unexpected _ u after found' _ =>
      obtain rfl := Option.some.inj (found.symm.trans found')
      -- The token is told by its place, so both readings stop in the same place.
      have hdistinct := hfront ▸ hnodup
      rw [List.nodup_middle, List.nodup_cons, List.mem_append, not_or] at hdistinct
      have hsame := hfront.symm.trans hsplit
      obtain ⟨rfl, -, -⟩ := (List.append_cons_inj_of_notMem hdistinct.1.1 hdistinct.1.2).1 hsame
      subst hsplit
      exact ⟨_, .found found (by simp), parts_of_blocked hviable (not_accepted_of_blocks blocks)⟩
  | @unread e front _ t hfront hkind hreadable hunreadable blocks =>
    cases hstops with
    | @tooLong u after value suffix hword hlong _ _ =>
      obtain ⟨hkind', htext⟩ := Prod.mk.inj hword
      have hunreadable' : Decimal.readLiteral u.text = .error (.tooLongToRead value.repr.length) := by
        rw [htext, Decimal.readLiteral_literal, if_pos hlong]
      obtain rfl := eq_of_unreadable hreadable hviable.readable
        (not_readable_of_error hkind hunreadable) (not_readable_of_error hkind' hunreadable')
        (hfront.symm.trans hsplit)
      subst hfront
      refine ⟨front.length, .numeral (by simp) hkind ?_,
        parts_of_blocked hviable (not_accepted_of_blocks blocks)⟩
      rw [List.length_append, List.length_cons]
      omega

/-- Tokens behind a declaration cannot be made part of one. -/
theorem exists_parts_of_done {decl : Struct} (hscanned : Scanned tokens)
    (h : ctx.readStruct tokens = .done decl (t :: rest)) :
    ∃ i, tokens[i]? = some t ∧ Parts ctx.scope tokens i := by
  have howes : Owes ctx.readStruct tokens (ctx.readStruct tokens) := Prompt.readStruct ctx tokens
  obtain ⟨used, hsplit, tree, hwords, hdecl⟩ := sentence_of_readStruct hscanned h
  rw [h] at howes
  cases howes with
  | @done _ used' _ hsplit' _ settled =>
    obtain rfl := List.append_cancel_right (hsplit'.symm.trans hsplit)
    subst hsplit
    have hviable : (Language.structIn ctx.scope).Viable used' :=
      ⟨[], decl, tree, by rw [List.append_nil, hwords], hdecl⟩
    refine ⟨used'.length, by simp, parts_of_blocked hviable ?_⟩
    intro more haccepted
    obtain ⟨decl', hdone⟩ := accepted_iff.1 haccepted
    cases hdone.symm.trans (settled (t :: more) rfl)

/-- **Errors are told at the earliest token.** A text that is not parsed has one offending token,
or ends too early. What is in front of the offending token, or the whole text, can be completed to
tokens that are accepted, and no tokens that begin with those up to the offending one are. -/
theorem parseStruct_error_earliest {source filename : String} {failure : Failure}
    (h : parseStruct scope source filename = .error failure) :
    ∃ tokens, tokenize source filename = .ok tokens ∧
      ∃ i, i ≤ tokens.length ∧
        (∀ j, OffendsAt tokens (stoppedAt scope source tokens) failure j ↔ j = i) ∧
        Parts scope tokens i := by
  obtain ⟨tokens, htokens, hwords⟩ := exists_tokenize source filename
  have hscanned := scanned_of_map_word hwords
  have hnodup := nodup_of_tokenize htokens
  obtain ⟨i, hoffends, hparts⟩ : ∃ i,
      OffendsAt tokens (stoppedAt scope source tokens) failure i ∧ Parts scope tokens i := by
    rw [parseStruct, htokens] at h
    rw [stoppedAt_eq]
    simp only at h
    cases hread : (Context.ofTokens scope source tokens).readStruct tokens with
    | failed failure' rest =>
      rw [hread] at h
      obtain rfl := Except.error.inj h
      exact exists_parts_of_failed hscanned hnodup hread
    | done decl rest =>
      rw [hread] at h
      cases rest with
      | nil => cases h
      | cons t rest =>
        obtain rfl := Except.error.inj h
        obtain ⟨i, hi, hparts⟩ := exists_parts_of_done hscanned hread
        exact ⟨i, .found rfl hi, hparts⟩
  refine ⟨tokens, htokens, i, ?_, ?_, hparts⟩
  · cases hoffends with
    | found _ here => exact Nat.le_of_lt (List.getElem?_eq_some_iff.1 here).1
    | ended => exact Nat.le_refl _
    | numeral here => exact Nat.le_of_lt (List.getElem?_eq_some_iff.1 here).1
  · intro j
    constructor
    · intro hj
      exact hj.eq hnodup hoffends
    · rintro rfl
      exact hoffends

/-- A type that is not known stands behind what another type could complete. -/
theorem parseStruct_error_earliest_of_unknown :
    ∃ failure, parseStruct .empty "A\x7bv:array<B,3>\x7d" "" = .error failure ∧
      ∃ tokens, tokenize "A\x7bv:array<B,3>\x7d" "" = .ok tokens ∧
        ∃ i, i ≤ tokens.length ∧
          (∀ j, OffendsAt tokens (stoppedAt .empty "A\x7bv:array<B,3>\x7d" tokens) failure j ↔
            j = i) ∧
          Parts .empty tokens i := by
  have hwords : words "A\x7bv:array<B,3>\x7d".toList =
      StructTree.words ⟨false, "A",
        .last ⟨[], "v", .fixedArray (.named "B") ⟨3, .none, by decide⟩⟩⟩ :=
    words_eq_of_wordsWithin 30 (by decide +kernel)
  cases hparse : parseStruct .empty "A\x7bv:array<B,3>\x7d" "" with
  | error failure => exact ⟨failure, rfl, parseStruct_error_earliest hparse⟩
  | ok decl =>
    obtain ⟨tree, htree, hdecl⟩ := parseStruct_eq_ok_iff.1 hparse
    obtain rfl := StructTree.eq_of_words_eq (htree.trans hwords)
    cases hdecl

end ShaderStruct.Grammar
