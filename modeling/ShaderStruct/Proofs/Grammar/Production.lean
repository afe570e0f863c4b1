import ShaderStruct.Proofs.Words
import ShaderStruct.Reading

/-!
# Productions and their languages

A language says which lists of tokens spell which values. A production reads a language if it takes
a sentence from the front of its input, or else stops at the first token that no sentence can have
there: what it has read up to that token is the beginning of a sentence, and the token cannot follow.
The length of an integer is judged apart, since an integer that is too long stands where a shorter
one could.

Reading one production after the other reads one language after the other, provided that the end of
a sentence of the first is plain.
-/

namespace ShaderStruct

theorem Reading.andThen_assoc {α β γ : Type} (r : Reading α) (next : α → List Token → Reading β)
    (more : β → List Token → Reading γ) :
    (r.andThen next).andThen more = r.andThen fun a rest => (next a rest).andThen more := by
  cases r <;> rfl

theorem Reading.map_andThen {α β γ : Type} (r : Reading α) (f : α → β)
    (next : β → List Token → Reading γ) :
    (r.map f).andThen next = r.andThen fun a rest => next (f a) rest := by
  cases r <;> rfl

theorem Reading.andThen_map {α β γ : Type} (r : Reading α) (next : α → List Token → Reading β)
    (f : β → γ) : (r.andThen next).map f = r.andThen fun a rest => (next a rest).map f := by
  cases r <;> rfl

theorem Reading.map_map {α β γ : Type} (r : Reading α) (f : α → β) (g : β → γ) :
    (r.map f).map g = r.map fun a => g (f a) := by
  cases r <;> rfl

/-- A token that comes can be taken. -/
theorem Context.take_andThen_of_comes {α : Type} (ctx : Context) {kinds : List TokenKind}
    {texts : List String} {tokens : List Token} (h : comes kinds texts tokens = true)
    (next : List Token → Reading α) :
    ((ctx.take kinds texts tokens).andThen fun _ rest => next rest) = next tokens.tail := by
  cases tokens with
  | nil => cases h
  | cons t rest =>
    have hfits : t.fits kinds texts = true := h
    rw [take, if_pos hfits, Reading.andThen, List.tail_cons]

namespace Grammar

variable {α β : Type}

/-- Which lists of tokens spell which values. -/
abbrev Language (α : Type) := List Token → α → Prop

/-- Tokens of one kind and text, where the text of an integer does not matter. -/
def Alike (t u : Token) : Prop := t.kind = u.kind ∧ (t.kind = .decimalInt ∨ t.text = u.text)

theorem Alike.refl (t : Token) : Alike t t := ⟨rfl, Or.inr rfl⟩

theorem Alike.trans {t u v : Token} (h : Alike t u) (h' : Alike u v) : Alike t v := by
  obtain ⟨hkind, htext⟩ := h
  obtain ⟨hkind', htext'⟩ := h'
  refine ⟨hkind.trans hkind', ?_⟩
  rcases htext with hint | htext
  · exact Or.inl hint
  · exact htext'.imp hkind.trans htext.trans

theorem Alike.word_eq {t u : Token} (h : Alike t u) (hkind : u.kind ≠ .decimalInt) :
    t.word = u.word := by
  obtain ⟨hkind', htext⟩ := h
  rw [← hkind'] at hkind
  rw [Token.word, Token.word, hkind', htext.resolve_left hkind]

/-- Every integer is the literal of a number, as in the tokens of a text. -/
def Scanned (tokens : List Token) : Prop :=
  ∀ t ∈ tokens, t.kind = .decimalInt → ∃ value suffix, t.text = Decimal.literal value suffix

theorem Scanned.of_append {front back : List Token} (h : Scanned (front ++ back)) :
    Scanned back :=
  fun t ht => h t (List.mem_append_right _ ht)

namespace Language

variable {L : Language α} {M : α → Language β}

def Rejects (L : Language α) (tokens : List Token) : Prop :=
  ∀ used value rest, L used value → used ++ rest ≠ tokens

def Viable (L : Language α) (tokens : List Token) : Prop :=
  ∃ more value, L (tokens ++ more) value

def Live (L : Language α) : Prop := ∃ used value, L used value

/-- Where a sentence ends is plain from its tokens, and so is its value. -/
def PrefixFree (L : Language α) : Prop :=
  ∀ ⦃used used' value value' rest rest'⦄, L used value → L used' value' →
    used ++ rest = used' ++ rest' → used = used' ∧ value = value'

def one (p : Token → Prop) : Language Token := fun used t => used = [t] ∧ p t

/-- A sentence and behind it one of a language that depends on its value. -/
def seq (L : Language α) (M : α → Language β) : Language β :=
  fun used value => ∃ first second a, used = first ++ second ∧ L first a ∧ M a second value

def map (f : α → β) (L : Language α) : Language β := fun used b => ∃ a, L used a ∧ f a = b

def alt (L M : Language α) : Language α := fun used value => L used value ∨ M used value

def ofTrees {τ : Type} (words : τ → List Word) (meaning : τ → Option α) : Language α :=
  fun used value => ∃ tree, used.map Token.word = words tree ∧ meaning tree = some value

theorem prefixFree_one (p : Token → Prop) : (one p).PrefixFree := by
  rintro _ _ t t' rest rest' ⟨rfl, -⟩ ⟨rfl, -⟩ h
  obtain rfl := (List.cons.inj h).1
  exact ⟨rfl, rfl⟩

theorem prefixFree_ofTrees {τ : Type} {words : τ → List Word} {meaning : τ → Option α}
    (h : ∀ {tree tree' rest rest'}, words tree ++ rest = words tree' ++ rest' →
      tree = tree' ∧ rest = rest') : (ofTrees words meaning).PrefixFree := by
  rintro used used' value value' rest rest' ⟨tree, hused, hvalue⟩ ⟨tree', hused', hvalue'⟩ heq
  have hwords := congrArg (List.map Token.word) heq
  rw [List.map_append, List.map_append, hused, hused'] at hwords
  obtain ⟨rfl, hrest⟩ := h hwords
  have hlength : used.length = used'.length := by
    rw [← List.length_map Token.word, hused, ← hused', List.length_map]
  refine ⟨(List.append_inj heq hlength).1, ?_⟩
  rw [hvalue] at hvalue'
  exact Option.some.inj hvalue'

theorem seq_one_iff {p : Token → Prop} {M : Token → Language β} {used : List Token} {value : β} :
    (one p).seq M used value ↔ ∃ t rest, used = t :: rest ∧ p t ∧ M t rest value := by
  constructor
  · rintro ⟨_, second, t, rfl, ⟨rfl, hp⟩, h⟩
    exact ⟨t, second, rfl, hp, h⟩
  · rintro ⟨t, rest, rfl, hp, h⟩
    exact ⟨[t], rest, t, rfl, ⟨rfl, hp⟩, h⟩

theorem Live.seq {M : α → Language β} (h : L.Live) (hlive : ∀ a, (M a).Live) :
    (L.seq M).Live := by
  obtain ⟨first, a, hfirst⟩ := h
  obtain ⟨second, b, hsecond⟩ := hlive a
  exact ⟨first ++ second, b, first, second, a, rfl, hfirst, hsecond⟩

theorem Live.map {f : α → β} (h : L.Live) : (L.map f).Live := by
  obtain ⟨used, a, hused⟩ := h
  exact ⟨used, f a, a, hused, rfl⟩

theorem Live.alt_right {M : Language α} (h : M.Live) : (L.alt M).Live := by
  obtain ⟨used, a, hused⟩ := h
  exact ⟨used, a, Or.inr hused⟩

theorem map_one_iff {p : Token → Prop} {f : Token → β} {used : List Token} {value : β} :
    (one p).map f used value ↔ ∃ t, used = [t] ∧ p t ∧ f t = value := by
  constructor
  · rintro ⟨t, ⟨hused, hp⟩, hvalue⟩
    exact ⟨t, hused, hp, hvalue⟩
  · rintro ⟨t, hused, hp, hvalue⟩
    exact ⟨t, ⟨hused, hp⟩, hvalue⟩

/-! ### Where a reading stops -/

/-- A failure that is told at the first token, if there is one, that cannot continue what has been
read before. -/
inductive Stops (L : Language α) (before : List Token) : Failure → List Token → Prop where
  | ended {e : SyntaxError} (found : e.found = none) (h : L.Rejects before) :
    Stops L before (.syntactic e) []
  | unexpected {e : SyntaxError} {t : Token} {after : List Token} (found : e.found = some t)
    (h : ∀ t' after', Alike t' t → L.Rejects (before ++ t' :: after')) :
    Stops L before (.syntactic e) (t :: after)
  | tooLong {t : Token} {after : List Token} {value : Nat} {suffix : Decimal.Suffix}
    (word : t.word = (.decimalInt, Decimal.literal value suffix))
    (long : Decimal.digitLimit < value.repr.length)
    (viable : ∃ t' value' suffix', t'.word = (.decimalInt, Decimal.literal value' suffix') ∧
      value'.repr.length ≤ Decimal.digitLimit ∧ L.Viable (before ++ [t']))
    (h : ∀ after', L.Rejects (before ++ t :: after')) :
    Stops L before (.numeral (.tooLongToRead value.repr.length)) (t :: after)

/-- A failure stays where it is when its language becomes a part of another. -/
theorem Stops.imp {L : Language α} {M : Language β} {front before after : List Token}
    {failure : Failure} (h : Stops L before failure after)
    (hrejects : ∀ tokens, L.Rejects tokens → M.Rejects (front ++ tokens))
    (hviable : ∀ tokens, L.Viable tokens → M.Viable (front ++ tokens)) :
    Stops M (front ++ before) failure after := by
  cases h with
  | ended found h => exact .ended found (hrejects _ h)
  | unexpected found h =>
    refine .unexpected found fun t' after' hlike => ?_
    rw [List.append_assoc]
    exact hrejects _ (h t' after' hlike)
  | tooLong word long viable h =>
    obtain ⟨t', value', suffix', hword, hshort, hprefix⟩ := viable
    refine .tooLong word long ⟨t', value', suffix', hword, hshort, ?_⟩ fun after' => ?_
    · rw [List.append_assoc]
      exact hviable _ hprefix
    · rw [List.append_assoc]
      exact hrejects _ (h after')

theorem Stops.rejects {before after : List Token} {failure : Failure}
    (h : L.Stops before failure after) : L.Rejects (before ++ after) := by
  cases h with
  | ended found h =>
    rw [List.append_nil]
    exact h
  | unexpected found h => exact h _ _ (Alike.refl _)
  | tooLong word long viable h => exact h _

/-- A reading takes a sentence from the front of the tokens, or stops where none can go on. -/
def Describes (L : Language α) (tokens : List Token) : Reading α → Prop
  | .done value rest => ∃ used, tokens = used ++ rest ∧ L used value
  | .failed failure _ =>
    ∃ before after, tokens = before ++ after ∧ L.Viable before ∧ L.Stops before failure after

def Reads (L : Language α) (tokens : List Token) (reading : Reading α) : Prop :=
  Scanned tokens → L.Describes tokens reading

section Combinators

variable {tokens : List Token} {reading : Reading α}

theorem Rejects.seq {used rest : List Token} {value : α} {M : α → Language β}
    (hfree : L.PrefixFree) (hused : L used value) (h : (M value).Rejects rest) :
    (L.seq M).Rejects (used ++ rest) := by
  rintro _ b behind ⟨first, second, a, rfl, hfirst, hsecond⟩ heq
  rw [List.append_assoc] at heq
  obtain ⟨rfl, rfl⟩ := hfree hfirst hused heq
  exact h _ _ _ hsecond (List.append_cancel_left heq)

theorem Rejects.seq_first {M : α → Language β} (h : L.Rejects tokens) :
    (L.seq M).Rejects tokens := by
  rintro _ b behind ⟨first, second, a, rfl, hfirst, -⟩ heq
  rw [List.append_assoc] at heq
  exact h _ _ _ hfirst heq

theorem Viable.seq {used rest : List Token} {value : α} {M : α → Language β}
    (hused : L used value) (h : (M value).Viable rest) : (L.seq M).Viable (used ++ rest) := by
  obtain ⟨more, b, hsecond⟩ := h
  exact ⟨more, b, used, rest ++ more, value, List.append_assoc .., hused, hsecond⟩

theorem Viable.seq_first {M : α → Language β} (hlive : ∀ a, (M a).Live)
    (h : L.Viable tokens) : (L.seq M).Viable tokens := by
  obtain ⟨more, a, hfirst⟩ := h
  obtain ⟨second, b, hsecond⟩ := hlive a
  exact ⟨more ++ second, b, tokens ++ more, second, a, (List.append_assoc ..).symm, hfirst,
    hsecond⟩

/-- Reading on where a first sentence ends. -/
theorem Reads.andThen {M : α → Language β} {next : α → List Token → Reading β}
    (h : L.Reads tokens reading) (hfree : L.PrefixFree) (hlive : ∀ a, (M a).Live)
    (hnext : ∀ used value rest, tokens = used ++ rest → L used value →
      (M value).Reads rest (next value rest)) :
    (L.seq M).Reads tokens (reading.andThen next) := by
  intro hscanned
  have hfirst := h hscanned
  cases reading with
  | failed failure rest =>
    obtain ⟨before, after, rfl, hviable, hstops⟩ := hfirst
    refine ⟨before, after, rfl, hviable.seq_first hlive, ?_⟩
    rw [← List.nil_append before]
    exact hstops.imp (fun _ => Rejects.seq_first) (fun _ => Viable.seq_first hlive)
  | done value rest =>
    obtain ⟨used, rfl, hused⟩ := hfirst
    have hsecond := hnext used value rest rfl hused hscanned.of_append
    change (L.seq M).Describes _ (next value rest)
    cases hreading : next value rest with
    | done b behind =>
      rw [hreading] at hsecond
      obtain ⟨second, rfl, hsecond⟩ := hsecond
      exact ⟨used ++ second, (List.append_assoc ..).symm, used, second, value, rfl, hused, hsecond⟩
    | failed failure behind =>
      rw [hreading] at hsecond
      obtain ⟨before, after, rfl, hviable, hstops⟩ := hsecond
      refine ⟨used ++ before, after, (List.append_assoc ..).symm, hviable.seq hused, ?_⟩
      exact hstops.imp (fun _ => Rejects.seq hfree hused) (fun _ => Viable.seq hused)

theorem Reads.map (f : α → β) (h : L.Reads tokens reading) :
    (L.map f).Reads tokens (reading.map f) := by
  intro hscanned
  have hfirst := h hscanned
  cases reading with
  | done value rest =>
    obtain ⟨used, rfl, hused⟩ := hfirst
    exact ⟨used, rfl, value, hused, rfl⟩
  | failed failure rest =>
    obtain ⟨before, after, rfl, hviable, hstops⟩ := hfirst
    have hmap : ∀ ts, L.Viable ts → (L.map f).Viable ([] ++ ts) := by
      rintro ts ⟨more, a, ha⟩
      exact ⟨more, f a, a, ha, rfl⟩
    refine ⟨before, after, rfl, hmap before hviable, ?_⟩
    rw [← List.nil_append before]
    refine hstops.imp ?_ hmap
    rintro ts hrejects _ b behind ⟨a, ha, -⟩
    exact hrejects _ _ _ ha

/-- Every sentence starts with a token unlike the first one here. -/
def Apart (L : Language α) (tokens : List Token) : Prop :=
  ∀ used value, L used value → ∃ u rest, used = u :: rest ∧ ∀ t ∈ tokens.head?, ¬ Alike u t

theorem Apart.rejects (h : L.Apart tokens) : L.Rejects tokens := by
  intro used value rest hused heq
  obtain ⟨u, more, rfl, hunlike⟩ := h used value hused
  subst heq
  exact hunlike u rfl (Alike.refl u)

theorem Apart.of_alike {before after after' : List Token} {t t' : Token}
    (h : L.Apart (before ++ t :: after)) (hlike : Alike t' t) :
    L.Apart (before ++ t' :: after') := by
  intro used value hused
  obtain ⟨u, rest, rfl, hunlike⟩ := h used value hused
  refine ⟨u, rest, rfl, ?_⟩
  cases before with
  | nil =>
    rintro _ ⟨⟩ hu
    exact hunlike t rfl (hu.trans hlike)
  | cons b before => exact hunlike

/-- An alternative that the next token rules out does not matter. -/
theorem Reads.alt {M : Language α} (h : L.Reads tokens reading) (hapart : M.Apart tokens) :
    (L.alt M).Reads tokens reading := by
  intro hscanned
  have hfirst := h hscanned
  have hrejects' : ∀ {ts}, L.Rejects ts → M.Apart ts → (L.alt M).Rejects ts := by
    rintro ts hrejects hts used value rest (hused | hused)
    · exact hrejects _ _ _ hused
    · exact hts.rejects _ _ _ hused
  have hviable' : ∀ {ts}, L.Viable ts → (L.alt M).Viable ts := by
    rintro ts ⟨more, value, hused⟩
    exact ⟨more, value, Or.inl hused⟩
  cases reading with
  | done value rest =>
    obtain ⟨used, rfl, hused⟩ := hfirst
    exact ⟨used, rfl, Or.inl hused⟩
  | failed failure rest =>
    obtain ⟨before, after, rfl, hviable, hstops⟩ := hfirst
    refine ⟨before, after, rfl, hviable' hviable, ?_⟩
    cases hstops with
    | ended found hrejects =>
      rw [List.append_nil] at hapart
      exact .ended found (hrejects' hrejects hapart)
    | unexpected found hrejects =>
      exact .unexpected found fun t' after' hlike =>
        hrejects' (hrejects t' after' hlike) (hapart.of_alike hlike)
    | tooLong word long viable hrejects =>
      obtain ⟨t', value', suffix', hword, hshort, hprefix⟩ := viable
      exact .tooLong word long ⟨t', value', suffix', hword, hshort, hviable' hprefix⟩ fun after' =>
        hrejects' (hrejects after') (hapart.of_alike (Alike.refl _))

/-- Reading on behind a first token that leaves a language of its own. -/
theorem Reads.cons {M : Language α} {t : Token} (h : M.Reads tokens reading)
    (hnil : ∀ value, ¬ L [] value) (hcons : ∀ used value, L (t :: used) value ↔ M used value) :
    L.Reads (t :: tokens) reading := by
  intro hscanned
  have hrejects : ∀ ts, M.Rejects ts → L.Rejects ([t] ++ ts) := by
    intro ts hts used value rest hused heq
    cases used with
    | nil => exact hnil value hused
    | cons u used =>
      obtain ⟨rfl, hmore⟩ := List.cons.inj heq
      exact hts used value rest ((hcons used value).1 hused) hmore
  have hviable : ∀ ts, M.Viable ts → L.Viable ([t] ++ ts) := by
    rintro ts ⟨more, value, hmore⟩
    exact ⟨more, value, (hcons _ value).2 hmore⟩
  have hbehind := h fun u hu => hscanned u (List.mem_cons_of_mem _ hu)
  cases reading with
  | done value rest =>
    obtain ⟨used, rfl, hused⟩ := hbehind
    exact ⟨t :: used, rfl, (hcons used value).2 hused⟩
  | failed failure rest =>
    obtain ⟨before, after, rfl, hbefore, hstops⟩ := hbehind
    exact ⟨t :: before, after, rfl, hviable before hbefore, hstops.imp hrejects hviable⟩

theorem Reads.single {t : Token} {rest : List Token} {value : α} (h : L [t] value) :
    L.Reads (t :: rest) (.done value rest) :=
  fun _ => ⟨[t], rfl, h⟩

/-- No sentence starts with a token like this one. -/
theorem Reads.unexpected {t : Token} {rest : List Token} {behind : List Token} {e : SyntaxError}
    (hlive : L.Live) (found : e.found = some t)
    (h : ∀ u used value, Alike u t → ¬ L (u :: used) value) (hnil : ∀ value, ¬ L [] value) :
    L.Reads (t :: rest) (.failed (.syntactic e) behind) := by
  refine fun _ => ⟨[], t :: rest, rfl, hlive, .unexpected found ?_⟩
  intro u after hlike used value more hused heq
  cases used with
  | nil => exact hnil value hused
  | cons v used =>
    obtain rfl := (List.cons.inj heq).1
    exact h v used value hlike hused

theorem Reads.ended {behind : List Token} {e : SyntaxError} (hlive : L.Live)
    (found : e.found = none) (hnil : ∀ value, ¬ L [] value) :
    L.Reads [] (.failed (.syntactic e) behind) := by
  refine fun _ => ⟨[], [], rfl, hlive, .ended found ?_⟩
  intro used value more hused heq
  obtain ⟨rfl, -⟩ := List.append_eq_nil_iff.1 heq
  exact hnil value hused

theorem Reads.congr {M : Language α} (h : M.Reads tokens reading)
    (hiff : ∀ used value, L used value ↔ M used value) : L.Reads tokens reading := by
  obtain rfl : L = M := funext fun used => funext fun value => propext (hiff used value)
  exact h

end Combinators

/-! ### What comes next -/

def Starts (L : Language α) (p : Word → Prop) : Prop :=
  ∀ used value, L used value → ∃ t rest, used = t :: rest ∧ p t.word

theorem Starts.not_nil {p : Word → Prop} (h : L.Starts p) (value : α) : ¬ L [] value := by
  intro hused
  obtain ⟨t, rest, heq, -⟩ := h _ _ hused
  cases heq

theorem Starts.length_lt {p : Word → Prop} {used rest tokens : List Token} {value : α}
    (h : L.Starts p) (hused : L used value) (heq : tokens = used ++ rest) :
    rest.length < tokens.length := by
  obtain ⟨t, more, rfl, -⟩ := h _ _ hused
  rw [heq, List.cons_append, List.length_cons, List.length_append]
  omega

theorem starts_one {p : Token → Prop} {q : Word → Prop} (h : ∀ t, p t → q t.word) :
    (one p).Starts q := by
  rintro used t ⟨rfl, ht⟩
  exact ⟨t, [], rfl, h t ht⟩

theorem Starts.imp {p q : Word → Prop} (h : L.Starts p) (himp : ∀ w, p w → q w) : L.Starts q := by
  intro used value hused
  obtain ⟨t, rest, heq, ht⟩ := h _ _ hused
  exact ⟨t, rest, heq, himp _ ht⟩

theorem Starts.seq {p : Word → Prop} {M : α → Language β} (h : L.Starts p) :
    (L.seq M).Starts p := by
  rintro _ b ⟨first, second, a, rfl, hfirst, -⟩
  obtain ⟨t, rest, rfl, ht⟩ := h _ _ hfirst
  exact ⟨t, rest ++ second, rfl, ht⟩

theorem Starts.map {p : Word → Prop} {f : α → β} (h : L.Starts p) : (L.map f).Starts p := by
  rintro used _ ⟨a, hused, rfl⟩
  exact h _ _ hused

theorem Starts.alt {p : Word → Prop} {M : Language α} (h : L.Starts p) (h' : M.Starts p) :
    (L.alt M).Starts p := by
  rintro used value (hused | hused)
  · exact h _ _ hused
  · exact h' _ _ hused

theorem Starts.apart {p : Word → Prop} {tokens : List Token} (h : L.Starts p)
    (hunlike : ∀ t ∈ tokens.head?, ∀ u, Alike u t → ¬ p u.word) : L.Apart tokens := by
  intro used value hused
  obtain ⟨u, rest, rfl, hu⟩ := h _ _ hused
  exact ⟨u, rest, rfl, fun t ht hlike => hunlike t ht u hlike hu⟩

section Comes

variable {kind : TokenKind} {text : String} {tokens : List Token}

theorem comes_iff : Context.comes [kind] [text] tokens = true ↔
    ∃ t rest, tokens = t :: rest ∧ t.word = (kind, text) := by
  cases tokens with
  | nil => simp [Context.comes]
  | cons t rest => simp [Context.comes, Token.fits, Token.word]

theorem comes_kind_iff : Context.comes [kind] [] tokens = true ↔
    ∃ t rest, tokens = t :: rest ∧ t.kind = kind := by
  cases tokens with
  | nil => simp [Context.comes]
  | cons t rest => simp [Context.comes, Token.fits]

theorem apart_of_comes (h : Context.comes [kind] [text] tokens = true) (hkind : kind ≠ .decimalInt)
    (hstarts : L.Starts (· ≠ (kind, text))) : L.Apart tokens := by
  obtain ⟨t, rest, rfl, ht⟩ := comes_iff.1 h
  apply hstarts.apart
  rintro _ ⟨⟩ u hlike hu
  refine hu ((hlike.word_eq ?_).trans ht)
  rw [(Prod.mk.inj ht).1]
  exact hkind

theorem apart_of_not_comes (h : ¬ Context.comes [kind] [text] tokens = true)
    (hkind : kind ≠ .decimalInt) (hstarts : L.Starts (· = (kind, text))) : L.Apart tokens := by
  apply hstarts.apart
  intro t ht u hlike hu
  obtain ⟨rest, rfl⟩ := List.head?_eq_some_iff.1 ht
  refine h (comes_iff.2 ⟨t, rest, rfl, (hlike.word_eq ?_).symm.trans hu⟩)
  rw [← hlike.1, (Prod.mk.inj hu).1]
  exact hkind

theorem apart_of_comes_kind (h : Context.comes [kind] [] tokens = true)
    (hstarts : L.Starts (·.1 ≠ kind)) : L.Apart tokens := by
  obtain ⟨t, rest, rfl, ht⟩ := comes_kind_iff.1 h
  apply hstarts.apart
  rintro _ ⟨⟩ u hlike hu
  exact hu (hlike.1.trans ht)

theorem apart_of_not_comes_kind (h : ¬ Context.comes [kind] [] tokens = true)
    (hstarts : L.Starts (·.1 = kind)) : L.Apart tokens := by
  apply hstarts.apart
  intro t ht u hlike hu
  obtain ⟨rest, rfl⟩ := List.head?_eq_some_iff.1 ht
  exact h (comes_kind_iff.2 ⟨t, rest, rfl, hlike.1.symm.trans hu⟩)

end Comes

/-! ### Taking one token -/

/-- Taking a token reads it if it has the property, and stops at it otherwise. -/
theorem reads_take {ctx : Context} {kinds : List TokenKind} {texts : List String}
    {p : Token → Prop} (tokens : List Token) (hp : ∀ t, p t ↔ t.fits kinds texts = true)
    (hlike : ∀ t u, Alike t u → p t → p u) (hsome : ∃ t, p t) :
    (one p).Reads tokens (ctx.take kinds texts tokens) := by
  have hlive : (one p).Live := by
    obtain ⟨t, ht⟩ := hsome
    exact ⟨[t], t, rfl, ht⟩
  have hnil : ∀ value, ¬ one p [] value := by
    rintro value ⟨h, -⟩
    cases h
  cases tokens with
  | nil => exact .ended hlive rfl hnil
  | cons t rest =>
    rw [Context.take]
    split
    · next hfits => exact .single ⟨rfl, (hp t).2 hfits⟩
    · next hfits =>
      refine .unexpected hlive rfl ?_ hnil
      rintro u used value hu ⟨heq, hpu⟩
      obtain ⟨rfl, -⟩ := List.cons.inj heq
      exact hfits ((hp t).1 (hlike _ t hu hpu))

end Language

end Grammar

end ShaderStruct
