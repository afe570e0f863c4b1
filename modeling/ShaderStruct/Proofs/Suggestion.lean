import Mathlib.Data.List.Nodup
import Mathlib.Data.List.Perm.Subperm
import ShaderStruct.Proofs.Formatting
import ShaderStruct.Proofs.Grammar.Earliest
import ShaderStruct.Proofs.Grammar.Repair
import ShaderStruct.Proofs.Produced
import ShaderStruct.Proofs.Respelling
import ShaderStruct.Proofs.RoundTrip

/-!
# Suggested names

The names that a failure suggests for an unknown one are few, they differ, and each of them helps:
with a suggested name in the place of the unknown one, the text is read up to there as before, and
past it.
-/

namespace ShaderStruct

open Text Lexeme

/-! ### Which names are suggested -/

/-- Suggested names are some of the known ones, none of them more often. -/
theorem Similarity.closeNames_subperm (unknown : String) (known : List String) :
    (closeNames unknown known).Subperm known := by
  have hnames : (known.map (Candidate.of unknown)).map Candidate.name = known := by
    rw [List.map_map]
    exact List.map_id known
  have hclose : (((known.map (Candidate.of unknown)).filter Candidate.isClose).map
      Candidate.name).Sublist known := by
    conv_rhs => rw [← hnames]
    exact List.filter_sublist.map _
  have hsorted := (List.mergeSort_perm ((known.map (Candidate.of unknown)).filter
    Candidate.isClose) Candidate.precedes).map Candidate.name
  exact ((List.take_sublist _ _).map _).subperm.trans (hsorted.subperm.trans hclose.subperm)

theorem Similarity.length_closeNames_le (unknown : String) (known : List String) :
    (closeNames unknown known).length ≤ 3 := by
  rw [closeNames, List.length_map, List.length_take]
  exact Nat.min_le_left _ _

theorem nodup_eraseDups (names : List String) : names.eraseDups.Nodup := by
  induction hlength : names.length using Nat.strong_induction_on generalizing names with
  | _ n ih =>
    cases names with
    | nil => exact List.nodup_nil
    | cons name rest =>
      have hshorter : (rest.filter fun other => !other == name).length < n := by
        rw [← hlength]
        exact Nat.lt_succ_of_le (List.length_filter_le _ _)
      rw [List.eraseDups_cons, List.nodup_cons]
      refine ⟨fun hmem => ?_, ih _ hshorter _ rfl⟩
      simp at hmem

/-- A suggestion is the name of a known declaration, so it is not the unknown one. -/
theorem Scope.mem_closeNames {scope : Scope} {unknown name : String}
    (h : name ∈ Similarity.closeNames unknown scope.names) :
    ∃ target ∈ scope.known, target.name = name ∧ scope.find? name = some target := by
  have hmem := (Similarity.closeNames_subperm unknown scope.names).subset h
  rw [Scope.names, List.mem_eraseDups] at hmem
  obtain ⟨d, hd, hname⟩ := List.mem_map.1 hmem
  have hsome : (scope.find? name).isSome = true := by
    rw [Scope.find?, List.find?_isSome]
    exact ⟨d, List.mem_reverse.2 hd, beq_iff_eq.2 hname⟩
  obtain ⟨target, htarget⟩ := Option.isSome_iff_exists.1 hsome
  obtain ⟨htargetName, hlast⟩ := Scope.find?_eq_some_iff.1 htarget
  exact ⟨target, hlast.mem, htargetName, htarget⟩

def Struct.names (decl : Struct) : List String := decl.name :: decl.members.map (·.name)

namespace Grammar

/-! ### Names in declarations -/

theorem MemberTree.name_mem {scope : Scope} {tree : MemberTree} {member : Member}
    (h : tree.meaning scope = some member) : (TokenKind.identifier, member.name) ∈ tree.words := by
  obtain ⟨type, -, rfl⟩ := Option.map_eq_some_iff.1 h
  simp [MemberTree.words]

theorem BodyTree.name_mem {scope : Scope} {body : BodyTree} {members : List Member}
    (h : body.meaning scope = some members) :
    ∀ m ∈ members, (TokenKind.identifier, m.name) ∈ body.words := by
  induction body generalizing members with
  | attributes as =>
    obtain rfl := Option.some.inj h
    simp
  | last tree =>
    obtain ⟨member, hmember, rfl⟩ := Option.map_eq_some_iff.1 h
    rw [List.forall_mem_singleton, BodyTree.words]
    exact tree.name_mem hmember
  | more tree rest ih =>
    obtain ⟨member, hmember, hrest⟩ := Option.bind_eq_some_iff.1 h
    obtain ⟨later, hlater, rfl⟩ := Option.map_eq_some_iff.1 hrest
    rw [List.forall_mem_cons, BodyTree.words]
    exact ⟨List.mem_append_left _ (tree.name_mem hmember),
      fun m hm => List.mem_append_right _ (List.mem_cons_of_mem _ (ih hlater m hm))⟩

theorem Sentence.names_mem {scope : Scope} {ws : List Word} {decl : Struct}
    (h : Sentence scope ws decl) : ∀ name ∈ decl.names, (TokenKind.identifier, name) ∈ ws := by
  obtain ⟨tree, hwords, hdecl⟩ := h
  obtain ⟨members, hmembers, rfl⟩ := Option.map_eq_some_iff.1 hdecl
  have hbody := tree.body.name_mem hmembers
  rw [← hwords, StructTree.words, Struct.names, List.forall_mem_cons, List.forall_mem_map]
  refine ⟨by simp, ?_⟩
  intro m hm
  simp [hbody m hm]

theorem Declares.names_mem {scope after : Scope} {ws : List Word} {declared : List Declared}
    (h : Declares scope ws declared after) :
    ∀ d ∈ declared, ∀ name ∈ d.decl.names, (TokenKind.identifier, name) ∈ ws := by
  induction h with
  | nil => simp
  | cons hsentence _ ih =>
    rw [List.forall_mem_cons]
    exact ⟨fun name hname => List.mem_append_left _ (hsentence.names_mem name hname),
      fun d hd name hname => List.mem_append_right _ (ih d hd name hname)⟩

end Grammar

open Grammar

/-- What has been parsed has names that can be written again. -/
theorem Produced.isName_of_mem {decl : Struct} (h : Produced decl) :
    ∀ name ∈ decl.names, IsName name := by
  intro name hname
  cases h with
  | parsed _ h =>
    obtain ⟨tree, hwords, hdecl⟩ := parseStruct_eq_ok_iff.1 h
    have hsentence : Sentence _ tree.words decl := ⟨tree, rfl, hdecl⟩
    exact named_of_words_eq hwords _ (hsentence.names_mem name hname)
  | declared _ h hd =>
    have hrow := parseStructs_eq_ok_iff.1 h
    exact isName_of_mem_words hrow.known_words (hrow.names_mem _ hd name hname)

theorem Produced.isName {decl : Struct} (h : Produced decl) : IsName decl.name :=
  h.isName_of_mem _ List.mem_cons_self

theorem Produced.isName_member {decl : Struct} (h : Produced decl) {m : Member}
    (hm : m ∈ decl.members) : IsName m.name :=
  h.isName_of_mem _ (List.mem_cons_of_mem _ (List.mem_map_of_mem hm))

namespace Grammar

variable {ctx ctx' : Context} {scope : Scope} {tokens rest : List Token}

/-! ### Failures in other places -/

/-- What a failure is about depends on the scope only, not on where it is told. -/
theorem Blames.in_scope (hscope : ctx.scope = ctx'.scope) {problem : SyntaxProblem}
    {found : Option Token} (h : Blames ctx tokens (ctx.problemAt problem found) rest) :
    Blames ctx' tokens (ctx'.problemAt problem found) rest := by
  generalize hfailure : ctx.problemAt problem found = failure at h
  cases h with
  | expected named split =>
    obtain ⟨rfl, rfl⟩ := problemAt_inj hfailure
    exact .expected named split
  | notAType split =>
    obtain ⟨rfl, rfl⟩ := problemAt_inj hfailure
    exact .notAType split
  | invalidShorthand split =>
    obtain ⟨rfl, rfl⟩ := problemAt_inj hfailure
    exact .invalidShorthand split
  | unknownType split kind unknown =>
    obtain ⟨rfl, rfl⟩ := problemAt_inj hfailure
    rw [hscope] at unknown ⊢
    exact .unknownType split kind unknown
  | unread => cases hfailure

/-- The same tokens, with failures that are about the same of them. -/
def sameBlame (ctx ctx' : Context) : Likeness where
  toCongruence := .equal
  token := Eq
  failure e e' := ∀ tokens rest, Blames ctx tokens e rest → Blames ctx' tokens e' rest
  word_eq := congrArg Token.word
  numeral := by
    intro e tokens rest h
    generalize hfailure : Failure.numeral e = failure at h
    cases h with
    | unread split kind unreadable => exact .unread split kind unreadable
    | expected | notAType | invalidShorthand | unknownType => cases hfailure

/-- What a context knows decides how it settles tokens, wherever failures are told. -/
theorem Settles.in_scope {p : Struct → Prop} (h : Settles ctx p rest (ctx.readStruct tokens))
    (ctx' : Context) (hscope : ctx.scope = ctx'.scope) :
    Settles ctx' p rest (ctx'.readStruct tokens) := by
  have hctx : ctx.Like (sameBlame ctx ctx') ctx' := by
    refine Context.like_of_known rfl (congrArg Scope.known hscope) ?_
    rintro problem found found' hfound tokens rest hblames
    obtain rfl : found = found' := by
      cases hfound with
      | none => rfl
      | some heq => rw [heq]
    exact hblames.in_scope hscope
  have hsame : List.Forall₂ (sameBlame ctx ctx').token tokens tokens :=
    List.forall₂_same.2 fun _ _ => rfl
  have hlike := hctx.readStruct hsame
  have hleft : ∀ {left left' : List Token}, List.Forall₂ (sameBlame ctx ctx').token left left' →
      left = left' := by
    intro left left' hleft
    rwa [← List.forall₂_eq_eq_eq]
  generalize ctx.readStruct tokens = reading, ctx'.readStruct tokens = reading' at h hlike
  cases hlike with
  | done hvalue hrest =>
    obtain rfl := hvalue.eq
    obtain rfl := hleft hrest
    cases h with
    | done split holds => exact .done split holds
  | failed hfailure hrest =>
    obtain rfl := hleft hrest
    cases h with
    | failed blames => exact .failed (hfailure _ _ blames)

/-- Tokens behind others stay at their distance. -/
theorem getElem?_append_middle (front used : List Token) (t : Token) (more : List Token) :
    (front ++ (used ++ t :: more))[front.length + used.length]? = some t := by
  rw [← List.append_assoc, ← List.length_append]
  simp

/-- A failure that is about some tokens offends behind what is in front of them. -/
theorem Blames.exists_offendsAt {failure : Failure} {left : List Token}
    (h : Blames ctx rest failure left) (front : List Token) :
    ∃ j, front.length ≤ j ∧
      OffendsAt (front ++ rest) ((front ++ rest).length - left.length) failure j := by
  have hhere : ∀ {used more : List Token} {t : Token}, rest = used ++ t :: more →
      (front ++ rest)[front.length + used.length]? = some t := by
    rintro used more t rfl
    exact getElem?_append_middle front used t more
  cases h with
  | @expected kinds texts used _ _ split =>
    cases left with
    | nil => exact ⟨_, by rw [List.length_append]; exact Nat.le_add_right _ _, .ended rfl⟩
    | cons t more => exact ⟨_, Nat.le_add_right _ _, .found rfl (hhere split)⟩
  | notAType split => exact ⟨_, Nat.le_add_right _ _, .found rfl (hhere split)⟩
  | invalidShorthand split => exact ⟨_, Nat.le_add_right _ _, .found rfl (hhere split)⟩
  | unknownType split => exact ⟨_, Nat.le_add_right _ _, .found rfl (hhere split)⟩
  | @unread e used _ t split kind =>
    refine ⟨_, Nat.le_add_right _ _, .numeral (hhere split) kind ?_⟩
    rw [split]
    simp only [List.length_append, List.length_cons]
    omega

/-! ### Suggestions put to use -/

/-- A parse that gets past the token at an index. Either all is well, and the reference at a place
leads to a target, or what is wrong comes later. -/
inductive Passes (tokens : List Token) (stopped i k : Nat) (target : Declared) :
    Except Failure Struct → Prop where
  | parsed {decl : Struct} (refers : decl.references[k]? = some target) :
    Passes tokens stopped i k target (.ok decl)
  | later {failure : Failure} {j : Nat} (offends : OffendsAt tokens stopped failure j)
    (behind : i < j)
    (offset : ∀ t ∈ tokens[i]?, ∀ u ∈ tokens[j]?, t.offset < u.offset) :
    Passes tokens stopped i k target (.error failure)

/-- Which reference of a declaration the token behind some others makes: with any known name there,
whatever follows, the one at this place leads to what the name stands for. -/
def ReferenceAt (scope : Scope) (front : List Token) (k : Nat) : Prop :=
  ∀ (u : Token) (target : Declared) (more : List Token) (decl : Struct), u.kind = .identifier →
    scope.find? u.text = some target →
      (Context.ofTokens scope "" (front ++ u :: more)).readStruct (front ++ u :: more) =
        .done decl [] →
      decl.references[k]? = some target

theorem offset_lt_of_tokenize {source filename : String} {i j : Nat} {t u : Token}
    (h : tokenize source filename = .ok tokens) (hlt : i < j) (ht : tokens[i]? = some t)
    (hu : tokens[j]? = some u) : t.offset < u.offset := by
  obtain ⟨pieces, last, htokens, -, hpieces⟩ := exists_partition_of_source source filename
  obtain rfl := Except.ok.inj (h.symm.trans htokens)
  obtain ⟨hi, rfl⟩ := List.getElem?_eq_some_iff.1 ht
  obtain ⟨hj, rfl⟩ := List.getElem?_eq_some_iff.1 hu
  exact List.pairwise_iff_getElem.1 hpieces.pairwise_offset_lt i j hi hj hlt

/-- A parse of tokens that are settled from some token on gets past what is in front of it. -/
theorem passes_of_settles {source filename : String} {front : List Token} {u : Token} {k : Nat}
    {target : Declared} (htokens : tokenize source filename = .ok tokens)
    (hsplit : tokens = front ++ u :: rest)
    (h : Settles (.ofTokens scope source tokens) (fun decl => decl.references[k]? = some target)
      rest ((Context.ofTokens scope source tokens).readStruct tokens)) :
    Passes tokens (stoppedAt scope source tokens) front.length k target
      (parseStruct scope source filename) := by
  have hlater : ∀ {failure : Failure} {j : Nat},
      OffendsAt tokens (stoppedAt scope source tokens) failure j → (front ++ [u]).length ≤ j →
        Passes tokens (stoppedAt scope source tokens) front.length k target (.error failure) := by
    intro failure j hoffends hj
    rw [List.length_append, List.length_singleton] at hj
    exact .later hoffends hj fun t ht u hu => offset_lt_of_tokenize htokens hj ht hu
  rw [List.append_cons] at hsplit
  rw [parseStruct, htokens]
  simp only
  cases hread : (Context.ofTokens scope source tokens).readStruct tokens with
  | failed failure left =>
    rw [hread] at h
    cases h with
    | failed blames =>
      obtain ⟨j, hj, hoffends⟩ := blames.exists_offendsAt (front ++ [u])
      rw [← hsplit] at hoffends
      refine hlater ?_ hj
      rwa [stoppedAt_eq, hread]
  | done decl left =>
    rw [hread] at h
    cases h with
    | @done _ used _ split holds =>
      cases left with
      | nil => exact .parsed holds
      | cons t more =>
        refine hlater (.found rfl ?_) (Nat.le_add_right _ used.length)
        rw [hsplit, split]
        exact getElem?_append_middle _ used t more

/-- With the name of a declaration in the place of the token at an index, all other tokens are found
again, and the parse gets past that place, where the name refers to the declaration. -/
def Fixes (scope : Scope) (source filename : String) (tokens : List Token) (i k : Nat) (f : Token)
    (target : Declared) : Prop :=
  ∃ tokens', tokenize (replaced source f target.name) filename = .ok tokens' ∧
    tokens'.take i = tokens.take i ∧ tokens'[i]? = some (f.respelled target.name) ∧
    (tokens'.drop (i + 1)).map Token.word = (tokens.drop (i + 1)).map Token.word ∧
    Passes tokens' (stoppedAt scope (replaced source f target.name) tokens') i k target
      (parseStruct scope (replaced source f target.name) filename)

/-- An unknown type is told at an identifier that no declaration in scope has for its name. -/
theorem Blames.of_unknownType {e : SyntaxError} {name : String} {similar : List String}
    (h : Blames ctx tokens (.syntactic e) rest) (hproblem : e.problem = .unknownType name similar) :
    ∃ t, .syntactic e = ctx.problemAt (.unknownType name similar) (some t) ∧
      t.kind = .identifier ∧ ctx.scope.find? t.text = none ∧ name = t.text ∧
      similar = Similarity.closeNames t.text ctx.scope.names := by
  generalize hfailure : Failure.syntactic e = failure at h
  cases h with
  | expected | notAType | invalidShorthand =>
    rw [Failure.syntactic.inj hfailure] at hproblem
    cases hproblem
  | @unknownType _ _ t split kind unknown =>
    rw [Failure.syntactic.inj hfailure] at hproblem
    obtain ⟨rfl, rfl⟩ := SyntaxProblem.unknownType.inj hproblem
    exact ⟨t, rfl, kind, unknown, rfl, rfl⟩
  | unread => cases hfailure

/-- Where a text has an unknown type, and what a known name would do there. -/
theorem exists_takes_of_parseStruct {source filename : String} {e : SyntaxError} {name : String}
    {similar : List String} (htokens : tokenize source filename = .ok tokens)
    (h : parseStruct scope source filename = .error (.syntactic e))
    (hproblem : e.problem = .unknownType name similar) :
    ∃ f front rest, e.found = some f ∧ f.kind = .identifier ∧ scope.find? f.text = none ∧
      name = f.text ∧ similar = Similarity.closeNames f.text scope.names ∧
      tokens = front ++ f :: rest ∧ (∀ t ∈ front.getLast?, t.kind = .punctuator) ∧
      Takes (.ofTokens scope source tokens) Struct.references
        (Context.ofTokens scope source tokens).readStruct front := by
  rw [parseStruct, htokens] at h
  simp only at h
  have hsettles := Settles.readStruct (.ofTokens scope source tokens) tokens
  split at h
  · next failure rest hread =>
    obtain rfl := Except.error.inj h
    rw [hread] at hsettles
    cases hsettles with
    | failed blames =>
      obtain ⟨f, he, hkind, hunknown, hname, hsimilar⟩ := blames.of_unknownType hproblem
      rw [he] at hread
      obtain ⟨front, hsplit, hpunctuator, -, htakes⟩ :=
        Repairable.readStruct _ tokens name similar f rest hread
      have hfound : e.found = some f := by
        rw [Failure.syntactic.inj he]
      exact ⟨f, front, rest, hfound, hkind, hunknown, hname, hsimilar, hsplit, hpunctuator, htakes⟩
  · cases h
  · rw [← Failure.syntactic.inj (Except.error.inj h)] at hproblem
    cases hproblem

/-- **Suggestions are sound fixes.** A text with an unknown type is told at most three names, all
different, each of a known declaration and none the unknown name. With any of them in the place of
the unknown one, all other tokens are found again, and the parse gets past that place, where the
name now refers to the known declaration. -/
theorem suggestions_fix {source filename : String} {e : SyntaxError} {name : String}
    {similar : List String} (hknown : ∀ d ∈ scope.known, Produced d.decl)
    (h : parseStruct scope source filename = .error (.syntactic e))
    (hproblem : e.problem = .unknownType name similar) :
    ∃ f tokens i k, e.found = some f ∧ name = f.text ∧ tokenize source filename = .ok tokens ∧
      tokens[i]? = some f ∧ ReferenceAt scope (tokens.take i) k ∧
      similar.length ≤ 3 ∧ similar.Nodup ∧
      ∀ s ∈ similar, s ≠ f.text ∧ ∃ target ∈ scope.known, target.name = s ∧
        scope.find? s = some target ∧ Fixes scope source filename tokens i k f target := by
  obtain ⟨tokens, htokens, -⟩ := exists_tokenize source filename
  obtain ⟨f, front, rest, hfound, hkind, hunknown, rfl, rfl, rfl, hpunctuator, k, htakes⟩ :=
    exists_takes_of_parseStruct htokens h hproblem
  refine ⟨f, _, front.length, k, hfound, rfl, htokens, by simp, ?_,
    Similarity.length_closeNames_le _ _, ?_, ?_⟩
  · rw [List.take_left]
    intro u target more decl hu hfind hdone
    have hsettles :=
      (htakes u target more hu hfind).in_scope (.ofTokens scope "" (front ++ u :: more)) rfl
    rw [hdone] at hsettles
    cases hsettles with
    | done _ holds => exact holds
  · obtain ⟨names, hperm, hsublist⟩ := Similarity.closeNames_subperm f.text scope.names
    exact ((nodup_eraseDups _).sublist hsublist).perm hperm
  · intro s hs
    obtain ⟨target, hmem, rfl, hfind⟩ := Scope.mem_closeNames hs
    have hne : target.name ≠ f.text := by
      intro heq
      rw [heq, hunknown] at hfind
      cases hfind
    have hname : IsName target.name := (hknown target hmem).isName
    obtain ⟨rest', htokens', hwords⟩ := tokenize_replaced htokens hkind hname hpunctuator
    have hsettles := htakes (f.respelled target.name) target rest' hkind hfind
    refine ⟨hne, target, hmem, rfl, hfind, _, htokens', ?_, by simp, ?_,
      passes_of_settles htokens' rfl (hsettles.in_scope (.ofTokens ..) rfl)⟩
    · rw [List.take_left, List.take_left]
    · rw [List.append_cons, List.append_cons front]
      simpa using hwords

/-- A name with another last letter than the known one. -/
theorem suggestions_fix_of_misspelled :
    (∀ d ∈ (Scope.declare .empty ⟨"Lamp", []⟩).known, Produced d.decl) ∧
      ∃ e, parseStruct (.declare .empty ⟨"Lamp", []⟩) "A\x7bx:Lamb\x7d" "" =
          .error (.syntactic e) ∧
        e.problem = .unknownType "Lamb" ["Lamp"] ∧
        ∃ f tokens i k target, e.found = some f ∧ target.name = "Lamp" ∧
          Fixes (.declare .empty ⟨"Lamp", []⟩) "A\x7bx:Lamb\x7d" "" tokens i k f target := by
  have hknown : ∀ d ∈ (Scope.declare .empty ⟨"Lamp", []⟩).known, Produced d.decl := by
    have hwords : words "Lamp\x7b\x7d".toList =
        StructTree.words ⟨false, "Lamp", .attributes []⟩ :=
      words_eq_of_wordsWithin 10 (by decide +kernel)
    have hparse : parseStruct .empty "Lamp\x7b\x7d" "" = .ok ⟨"Lamp", []⟩ :=
      parseStruct_eq_ok_iff.2 ⟨_, hwords.symm, rfl⟩
    intro d hd
    rw [List.mem_singleton.1 hd]
    exact .parsed (by simp [Scope.empty]) hparse
  obtain ⟨tokens, htokens, hwords⟩ := exists_tokenize "A\x7bx:Lamb\x7d" ""
  have hmap : words "A\x7bx:Lamb\x7d".toList = [(.identifier, "A"), mark "\x7b",
      (.identifier, "x"), mark ":", (.identifier, "Lamb"), mark "\x7d"] :=
    words_eq_of_wordsWithin 20 (by decide +kernel)
  rw [hmap] at hwords
  simp only [List.map_eq_cons_iff, List.map_eq_nil_iff, Token.word, mark, Prod.mk.injEq] at hwords
  obtain ⟨a, _, rfl, ⟨ha, -⟩, b, _, rfl, ⟨hb, hb'⟩, c, _, rfl, ⟨hc, -⟩, d, _, rfl, ⟨hd, hd'⟩, f, _,
    rfl, ⟨hf, hf'⟩, g, _, rfl, -, rfl⟩ := hwords
  have hsimilar : Similarity.closeNames "Lamb" (Scope.declare .empty ⟨"Lamp", []⟩).names =
      ["Lamp"] := by
    decide +kernel
  have hfind : (Scope.declare .empty ⟨"Lamp", []⟩).find? "Lamb" = none := by decide +kernel
  have hread : ∀ ctx : Context, ctx.scope = .declare .empty ⟨"Lamp", []⟩ →
      ctx.readStruct [a, b, c, d, f, g] =
        .failed (ctx.problemAt (.unknownType "Lamb" ["Lamp"]) (some f)) [g] := by
    intro ctx hscope
    have htype : ctx.readType [f, g] =
        .failed (ctx.problemAt (.unknownType "Lamb" ["Lamp"]) (some f)) [g] := by
      rw [Context.readType, hf]
      simp only [Context.readNamed, hf', hscope, hfind, hsimilar]
      rfl
    rw [Language.readStruct_eq]
    simp [Context.skipStruct, Context.comes, Context.take, Token.fits, Reading.andThen, Reading.map,
      Context.readBody_eq, Language.readAttributes_eq, Context.readAttributesEnd, ha, hb, hb', hc,
      hd, hd', htype]
  have hparse : ∃ e, parseStruct (.declare .empty ⟨"Lamp", []⟩) "A\x7bx:Lamb\x7d" "" =
      .error (.syntactic e) ∧ e.problem = .unknownType "Lamb" ["Lamp"] := by
    rw [parseStruct, htokens]
    simp only
    rw [hread _ rfl]
    exact ⟨_, rfl, rfl⟩
  obtain ⟨e, herror, hproblem⟩ := hparse
  obtain ⟨u, tokens, i, k, hfound, -, -, -, -, -, -, hfixes⟩ :=
    suggestions_fix hknown herror hproblem
  obtain ⟨-, target, -, hname, -, hfix⟩ := hfixes "Lamp" List.mem_cons_self
  exact ⟨hknown, e, herror, hproblem, u, tokens, i, k, target, hfound, hname, hfix⟩

end Grammar

end ShaderStruct
