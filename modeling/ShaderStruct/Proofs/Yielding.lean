import Mathlib.Data.List.Forall2
import ShaderStruct.Proofs.Relocation
import ShaderStruct.Proofs.Stepping

/-!
# What a stream yields

Between two tokens a stream may be replaced by another on the same scanner, and the scanner may be
looked at and moved over white space. None of this makes the stream lose a token or yield one
twice. Where the scanner is moved by hand, what comes next is what a source that starts there would
have.
-/

namespace ShaderStruct

open Text Lexeme

namespace Scanner

/-! ### Ahead of a scanner -/

theorem skipBlanks_skipBlanks (s : Scanner) : s.skipBlanks.skipBlanks = s.skipBlanks := by
  have hblanks : s.skipBlanks.rest.takeWhile isBlank = [] := by
    rw [rest_skipBlanks, List.takeWhile_eq_nil_iff]
    intro hlength
    have hstops := stops_dropWhile isBlank s.rest _ (List.head?_eq_getElem? ▸
      List.getElem?_eq_getElem hlength)
    exact Bool.eq_false_iff.1 hstops
  generalize s.skipBlanks = here at hblanks
  rw [skipBlanks, hblanks]
  rfl

theorem next_skipBlanks (s : Scanner) : s.skipBlanks.next = s.next := by
  rw [next, skipBlanks_skipBlanks]
  conv_rhs => rw [next]

theorem tokens_eq_of_next {s there : Scanner} (h : s.next = there.next) :
    s.tokens = there.tokens := by
  rw [tokens, tokens, h]

/-- The next token is the first of those ahead. -/
theorem next_of_tokens {s : Scanner} {ahead : List Token} (h : s.tokens = .ok ahead) :
    (∃ beyond, s.next = (.ok none, beyond) ∧ ahead = []) ∨
      ∃ t later beyond, s.next = (.ok (some t), beyond) ∧ ahead = t :: later ∧
        beyond.tokens = .ok later := by
  rw [tokens] at h
  split at h
  · cases h
  · next beyond hnext => exact Or.inl ⟨beyond, hnext, (Except.ok.inj h).symm⟩
  · next t beyond hnext =>
    obtain ⟨later, hlater, -⟩ := beyond.exists_tokens
    rw [hlater] at h
    exact Or.inr ⟨t, later, beyond, hnext, (Except.ok.inj h).symm, hlater⟩

theorem rest_eq_nil_of_next {s beyond : Scanner} (h : s.next = (.ok none, beyond)) :
    beyond.rest = [] := by
  fun_induction next s with
  | case1 s here hend =>
    obtain ⟨-, rfl⟩ := Prod.mk.inj h
    exact List.isEmpty_iff.1 hend
  | case2 => cases h
  | case3 s here hend lexeme beyond hscan ih => exact ih h
  | case4 => cases h

/-- Each token ahead has the place that the source gives it. -/
theorem placedBehind_of_tokens {s : Scanner} {ahead : List Token} (h : s.Sound)
    (hahead : s.tokens = .ok ahead) :
    ∀ t ∈ ahead, t.PlacedBehind (s.source.take t.offset.toNat) s.filename := by
  obtain ⟨pieces, last, htokens, hwoven, hpieces⟩ := exists_partition h
  obtain rfl := Except.ok.inj (hahead.symm.trans htokens)
  have hsource : s.passed ++ woven pieces last = s.source := by
    rw [hwoven, s.rest_eq, passed, List.take_append_drop]
  intro t ht
  obtain ⟨-, offset, hoffset, -, hplace⟩ := hpieces.slice hsource t ht
  rwa [hoffset, Int.toNat_natCast]

theorem tokens_of_rest_eq_nil {s : Scanner} (h : s.rest = []) : s.tokens = .ok [] := by
  obtain ⟨tokens, htokens, hwords⟩ := s.exists_tokens
  rw [h, words_nil, List.map_eq_nil_iff] at hwords
  rw [htokens, hwords]

end Scanner

/-! ### Steps of a stream -/

namespace TokenStream

def Outcome.yielded : Outcome → List Token
  | .token t => t.toList
  | _ => []

def yielded (s : TokenStream) : List Step → List Token
  | [] => []
  | step :: steps => (s.perform step).1.yielded ++ (s.perform step).2.yielded steps

/-- A stream with tokens to come. It has finished only if its scanner is at the end. -/
structure Owes (s : TokenStream) (tokens : List Token) : Prop where
  ahead : s.scanner.tokens = .ok tokens
  finished : s.finished = true → s.scanner.rest = []

variable {s : TokenStream} {tokens : List Token}

theorem Owes.eq_nil_of_finished (h : s.Owes tokens) (hfinished : s.finished = true) :
    tokens = [] := by
  have hahead := h.ahead
  rw [Scanner.tokens_of_rest_eq_nil (h.finished hfinished)] at hahead
  exact (Except.ok.inj hahead).symm

/-- The next token to come is yielded, and the others are still to come. -/
theorem Owes.next (h : s.Owes tokens) :
    (s.perform .next).1 = .token tokens.head? ∧ (s.perform .next).2.Owes tokens.tail := by
  rw [perform, TokenStream.next]
  by_cases hfinished : s.finished = true
  · rw [if_pos hfinished]
    obtain rfl := h.eq_nil_of_finished hfinished
    exact ⟨rfl, h⟩
  · rw [if_neg hfinished]
    rcases Scanner.next_of_tokens h.ahead with
      ⟨beyond, hnext, rfl⟩ | ⟨t, later, beyond, hnext, rfl, hlater⟩
    · have hend := Scanner.rest_eq_nil_of_next hnext
      rw [hnext]
      exact ⟨rfl, Scanner.tokens_of_rest_eq_nil hend, fun _ => hend⟩
    · rw [hnext]
      exact ⟨rfl, hlater, fun hfinished => absurd hfinished Bool.false_ne_true⟩

/-- Any other step yields nothing and leaves the tokens to come, unless it moves by hand. -/
theorem Owes.other (h : s.Owes tokens) {step : Step} (hnext : step ≠ .next)
    (hstill : ∀ count, step ≠ .advance count) :
    (s.perform step).1.yielded = [] ∧ (s.perform step).2.Owes tokens := by
  cases step with
  | next => exact absurd rfl hnext
  | restart => exact ⟨rfl, h.ahead, fun hfinished => absurd hfinished Bool.false_ne_true⟩
  | scan =>
    rw [s.perform_scan_snd]
    refine ⟨?_, h⟩
    rw [perform]
    split <;> rfl
  | skipBlanks =>
    refine ⟨rfl, ?_, fun hfinished => ?_⟩
    · exact (Scanner.tokens_eq_of_next s.scanner.next_skipBlanks).trans h.ahead
    · rw [perform, Scanner.rest_skipBlanks, h.finished hfinished]
      rfl
  | advance count => exact absurd rfl (hstill count)
  | currentLine => exact ⟨rfl, h⟩

/-- What steps yield comes off the front of the tokens to come. -/
theorem Owes.run {steps : List Step} (h : s.Owes tokens) (hstill : ∀ count, .advance count ∉ steps) :
    ∃ later, tokens = s.yielded steps ++ later ∧ (s.run steps).Owes later := by
  induction steps generalizing s tokens with
  | nil => exact ⟨tokens, rfl, h⟩
  | cons step steps ih =>
    have hstep : ∀ count, step ≠ .advance count := by
      rintro count rfl
      exact hstill count List.mem_cons_self
    have hsteps : ∀ count, .advance count ∉ steps := fun count hmem =>
      hstill count (List.mem_cons_of_mem _ hmem)
    by_cases hnext : step = .next
    · subst hnext
      obtain ⟨hyielded, howes⟩ := h.next
      obtain ⟨later, htail, hlater⟩ := ih howes hsteps
      refine ⟨later, ?_, hlater⟩
      rw [yielded, hyielded, List.append_assoc, ← htail]
      cases tokens <;> rfl
    · obtain ⟨hyielded, howes⟩ := h.other hnext hstep
      obtain ⟨later, htokens, hlater⟩ := ih howes hsteps
      refine ⟨later, ?_, hlater⟩
      rw [yielded, hyielded, List.nil_append, htokens]

/-- A stream that has finished is at the end, also when it is moved on by hand. -/
theorem rest_eq_nil_of_finished {steps : List Step}
    (h : s.finished = true → s.scanner.rest = []) :
    (s.run steps).finished = true → (s.run steps).scanner.rest = [] := by
  induction steps generalizing s with
  | nil => exact h
  | cons step steps ih =>
    refine ih ?_
    obtain ⟨tokens, htokens, -⟩ := s.scanner.exists_tokens
    have howes : s.Owes tokens := ⟨htokens, h⟩
    by_cases hnext : step = .next
    · subst hnext
      exact howes.next.2.finished
    by_cases hadvance : ∃ count, step = .advance count
    · obtain ⟨count, rfl⟩ := hadvance
      intro hfinished
      change (s.scanner.advance count).rest = []
      rw [Scanner.rest_advance, h hfinished, List.drop_nil]
    · exact (howes.other hnext (not_exists.1 hadvance)).2.finished

/-- **Stepping loses and repeats nothing.** After any steps the tokens ahead are those of the source
from the place of the scanner on, moved to where they stand. If no step moved by hand, they are what
is left of all tokens behind those that were returned. From then on they are returned one by one and
in order, whatever else is done but moving by hand, and a step that should return the next token
returns none only when all have been returned. -/
theorem tokens_ahead_of_run (source filename : String) (steps : List Step) :
    let s := (ofSource source filename).run steps
    let place := s.scanner.position
    ∃ tokens ahead, tokenize (String.ofList (source.toList.drop place)) filename = .ok tokens ∧
      List.Forall₂ (fun t u : Token => u.word = t.word ∧ u.offset = t.offset + place ∧
        u.PlacedBehind (source.toList.take u.offset.toNat) filename) tokens ahead ∧
      ((∀ count, .advance count ∉ steps) → tokenize source filename =
        .ok ((ofSource source filename).yielded steps ++ ahead)) ∧
      ∀ later, (∀ count, .advance count ∉ later) → ∃ remaining,
        ahead = s.yielded later ++ remaining ∧
        ((s.run later).perform .next).1 = .token remaining.head? := by
  intro s place
  have honward : (Scanner.ofSource source filename).Onward s.scanner :=
    (ofSource source filename).onward_run steps
  have hsound := honward.sound (Scanner.sound_ofSource source filename)
  have hsource : s.scanner.source = source.toList := honward.source_eq
  have hfilename : s.scanner.filename = filename := honward.filename_eq
  have hrest : s.scanner.rest = source.toList.drop place := by rw [s.scanner.rest_eq, hsource]
  obtain ⟨tokens, htokens, hahead⟩ := Scanner.tokens_eq_behind hsound
  rw [hrest, hfilename] at htokens
  have howes : s.Owes (tokens.map (Token.behind s.scanner.passed)) :=
    ⟨hahead, rest_eq_nil_of_finished fun hfinished => absurd hfinished Bool.false_ne_true⟩
  refine ⟨tokens, tokens.map (Token.behind s.scanner.passed), htokens, ?_, ?_, ?_⟩
  · rw [List.forall₂_map_right_iff, List.forall₂_same]
    intro t ht
    have hne : s.scanner.rest ≠ [] := by
      intro hnil
      have hnone := howes.ahead
      rw [Scanner.tokens_of_rest_eq_nil hnil] at hnone
      rw [List.map_eq_nil_iff.1 (Except.ok.inj hnone).symm] at ht
      cases ht
    have hplaced := Scanner.placedBehind_of_tokens hsound hahead _ (List.mem_map_of_mem ht)
    rw [hsource, hfilename] at hplaced
    refine ⟨rfl, ?_, hplaced⟩
    rw [Token.behind, Scanner.length_passed hne]
  · intro hstill
    obtain ⟨all, hall, -⟩ := exists_tokenize source filename
    have hstart : (ofSource source filename).Owes all :=
      ⟨hall, fun hfinished => absurd hfinished Bool.false_ne_true⟩
    obtain ⟨later, rfl, hlater⟩ := hstart.run hstill
    rw [hall, Except.ok.inj (hlater.ahead.symm.trans hahead)]
  · intro later hstill
    obtain ⟨remaining, hsplit, hremaining⟩ := howes.run hstill
    exact ⟨remaining, hsplit, hremaining.next.1⟩

/-- A scanner that was moved into a comment takes what stands there for a token. -/
theorem tokens_ahead_of_run_into_comment :
    (∀ count, Step.advance count ∉ [Step.restart]) ∧ ∃ t : Token, t.word = (.identifier, "b") ∧
      ((((ofSource "//b" "").run [.advance 2]).run [.restart]).perform .next).1 =
        .token (some t) := by
  have hstill : ∀ count, Step.advance count ∉ [Step.restart] := by simp
  obtain ⟨tokens, ahead, htokens, hahead, -, hlater⟩ :=
    tokens_ahead_of_run "//b" "" [.advance 2]
  obtain ⟨tokens', htokens', hwords⟩ := exists_tokenize "b" ""
  obtain rfl := Except.ok.inj (htokens.symm.trans htokens')
  have hword : words "b".toList = [(.identifier, "b")] :=
    words_eq_of_wordsWithin 5 (by decide +kernel)
  obtain ⟨t, rfl, ht⟩ := List.map_eq_singleton_iff.1 (hwords.trans hword)
  obtain ⟨u, rest, hu, hnil, rfl⟩ := List.forall₂_cons_left_iff.1 hahead
  obtain ⟨remaining, hremaining, hnext⟩ := hlater [.restart] hstill
  obtain rfl : u :: rest = remaining := hremaining
  exact ⟨hstill, u, hu.1.trans ht, hnext⟩

end TokenStream

end ShaderStruct
