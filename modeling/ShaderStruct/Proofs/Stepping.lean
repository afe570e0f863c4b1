import ShaderStruct.Proofs.Partition

/-!
# Steps of a scanner

A scanner may be moved by hand between the tokens it yields, past the end too, and the stream of its
tokens may be replaced. Whatever the steps are and in whichever order, they only move it forward in
its source, and it never loses its line.
-/

namespace ShaderStruct

open Text Lexeme

/-- The line and the place where it starts are those of the text that has been passed, and the text
of the line goes from there up to the next line feed. -/
structure Scanner.Oriented (s : Scanner) : Prop where
  line_eq : s.line = 1 + s.passed.count '\n'
  lineStart : ∃ line, LastLine s.passed line ∧ s.lineStart + line.length = s.passed.length
  currentLine : ∃ after, s.source.drop s.lineStart = s.currentLine.toList ++ after ∧
    '\n' ∉ s.currentLine.toList ∧ ∀ c ∈ after.head?, c = '\n'

theorem Scanner.Sound.oriented {s : Scanner} (h : s.Sound) : s.Oriented where
  line_eq := h.line_eq
  lineStart := by
    obtain ⟨line, hline⟩ := exists_lastLine s.passed
    refine ⟨line, hline, ?_⟩
    rw [h.lineStart_eq]
    exact throughLastLineFeed_add_length hline
  currentLine := by
    rw [Scanner.currentLine, String.toList_ofList, upToLineFeed]
    refine ⟨_, List.takeWhile_append_dropWhile.symm, ?_, ?_⟩
    · intro hmem
      have hinside := List.mem_takeWhile_imp hmem
      cases hinside
    · intro c hc
      have hstops := stops_dropWhile (· != '\n') (s.source.drop s.lineStart) c hc
      simpa using hstops

/-! ### Moving forward -/

namespace Scanner

/-- A scanner that is no less far in the same source, and as sound as before. -/
structure Onward (s there : Scanner) : Prop where
  source_eq : there.source = s.source
  filename_eq : there.filename = s.filename
  position_le : s.position ≤ there.position
  sound : s.Sound → there.Sound

theorem Onward.refl (s : Scanner) : s.Onward s := ⟨rfl, rfl, Nat.le_refl _, id⟩

theorem Onward.trans {s here there : Scanner} (h : s.Onward here) (h' : here.Onward there) :
    s.Onward there where
  source_eq := h'.source_eq.trans h.source_eq
  filename_eq := h'.filename_eq.trans h.filename_eq
  position_le := Nat.le_trans h.position_le h'.position_le
  sound := h'.sound ∘ h.sound

theorem onward_advance (s : Scanner) (count : Nat) : s.Onward (s.advance count) where
  source_eq := rfl
  filename_eq := rfl
  position_le := Nat.le_add_right _ _
  sound h := h.advance count

theorem onward_skipBlanks (s : Scanner) : s.Onward s.skipBlanks := s.onward_advance _

theorem onward_next (s : Scanner) : s.Onward s.next.2 := by
  fun_induction next s with
  | case1 s here => exact s.onward_skipBlanks
  | case2 s here => exact s.onward_skipBlanks
  | case3 s here hend lexeme beyond hscan ih =>
    exact (s.onward_skipBlanks.trans (here.onward_advance _)).trans ih
  | case4 s here hend kind lexeme hscan beyond =>
    exact s.onward_skipBlanks.trans (here.onward_advance _)

/-! ### What a scanner finds -/

/-- Nothing is found at the end, beyond it, and at white space. -/
theorem exists_scan_eq_error_iff (s : Scanner) :
    (∃ e, s.scan = .error e) ↔
      s.source.length ≤ s.position ∨ ∃ c, s.source[s.position]? = some c ∧ isBlank c = true := by
  have hhead : s.source[s.position]? = s.rest.head? := by
    rw [s.rest_eq, List.head?_drop]
  have herror : (∃ e, s.scan = .error e) ↔ first? s.rest = none := by
    unfold scan
    cases first? s.rest <;> simp
  rw [herror, hhead, ← List.drop_eq_nil_iff, ← s.rest_eq]
  cases hrest : s.rest with
  | nil => simp [first?_nil]
  | cons c rest => simp [first?_cons_eq_none_iff]

/-- A token is what the source has at its offset, it is placed by the text in front of it, and the
scanner is left at its end. -/
theorem yields_of_next {s beyond : Scanner} {t : Token} (h : s.Sound)
    (hnext : s.next = (.ok (some t), beyond)) :
    ∃ offset : Nat, t.offset = offset ∧
      (s.source.drop offset).take t.text.length = t.text.toList ∧
      t.PlacedBehind (s.source.take offset) s.filename ∧
      beyond.position = offset + t.text.length := by
  have honward := s.onward_next
  rw [hnext] at honward
  rcases next_cases h with ⟨_, hnone, -⟩ | ⟨here, gap, kind, lexeme, hsome, hhere, -, hfirst, -⟩
  · cases hnext.symm.trans hnone
  · cases hnext.symm.trans hsome
    obtain ⟨after, hrest⟩ := exists_rest_of_first? hfirst
    have hsource : here.source = s.source := honward.source_eq
    have hlength : (here.token kind lexeme).text.length = lexeme.length := by
      rw [token, String.length_ofList]
    refine ⟨here.position, rfl, ?_, ?_, ?_⟩
    · rw [hlength, ← hsource, ← here.rest_eq, hrest, List.take_left, token, String.toList_ofList]
    · rw [← hsource, ← hhere.filename_eq]
      exact hhere.sound.placedBehind (ne_nil_of_first? hfirst) kind lexeme
    · rw [hlength, position_advance]

end Scanner

/-! ### Steps -/

namespace TokenStream

/-- No step of the stream goes back. -/
theorem onward_perform (s : TokenStream) (step : Step) :
    s.scanner.Onward (s.perform step).2.scanner := by
  cases step with
  | next =>
    have honward := s.scanner.onward_next
    rw [perform, next]
    split
    · exact .refl _
    · split <;> rename_i hnext <;> rwa [hnext] at honward
  | restart => exact .refl _
  | scan =>
    rw [perform]
    split <;> exact .refl _
  | skipBlanks => exact s.scanner.onward_skipBlanks
  | advance count => exact s.scanner.onward_advance count
  | currentLine => exact .refl _

def run (s : TokenStream) (steps : List Step) : TokenStream :=
  steps.foldl (fun s step => (s.perform step).2) s

theorem onward_run (s : TokenStream) (steps : List Step) :
    s.scanner.Onward (s.run steps).scanner := by
  induction steps generalizing s with
  | nil => exact .refl _
  | cons step steps ih => exact (s.onward_perform step).trans (ih _)

theorem next_eq_of_token {s : TokenStream} {t : Token} (h : (s.perform .next).1 = .token (some t)) :
    s.scanner.next = (.ok (some t), (s.perform .next).2.scanner) := by
  rw [perform, next] at h ⊢
  split at h
  · cases h
  · next hfinished =>
    rw [if_neg hfinished]
    split at h <;> cases h
    next hnext => rw [hnext]

theorem perform_scan_snd (s : TokenStream) : (s.perform .scan).2 = s := by
  rw [perform]
  split <;> rfl

theorem perform_scan_fst_iff (s : TokenStream) :
    (∃ e, (s.perform .scan).1 = .failure e) ↔ ∃ e, s.scanner.scan = .error e := by
  rw [perform]
  split
  · next e hscan => simp [hscan]
  · next hscan => simp [hscan]

/-- **A scanner never loses its line.** This holds after any steps, and what the next step then
does is told from the place of the scanner: it does not move back; a scan changes nothing, and fails
at the end, beyond it and at white space; and the next token, if there is one, is what the source
has at its offset. -/
theorem oriented_run (source filename : String) (steps : List Step) :
    let s := (ofSource source filename).run steps
    s.scanner.source = source.toList ∧ s.scanner.Oriented ∧
      (∀ step, s.scanner.position ≤ (s.perform step).2.scanner.position) ∧
      s.perform .currentLine = (.line s.scanner.currentLine, s) ∧
      (s.perform .scan).2 = s ∧
      ((∃ e, (s.perform .scan).1 = .failure e) ↔ source.toList.length ≤ s.scanner.position ∨
        ∃ c, source.toList[s.scanner.position]? = some c ∧ isBlank c = true) ∧
      ∀ t, (s.perform .next).1 = .token (some t) → ∃ offset : Nat, t.offset = offset ∧
        (source.toList.drop offset).take t.text.length = t.text.toList ∧
        t.PlacedBehind (source.toList.take offset) filename ∧
        (s.perform .next).2.scanner.position = offset + t.text.length := by
  intro s
  have honward : (Scanner.ofSource source filename).Onward s.scanner :=
    (ofSource source filename).onward_run steps
  have hsound := honward.sound (Scanner.sound_ofSource source filename)
  have hsource : s.scanner.source = source.toList := honward.source_eq
  have hfilename : s.scanner.filename = filename := honward.filename_eq
  refine ⟨hsource, hsound.oriented, ?_, rfl, s.perform_scan_snd, ?_, ?_⟩
  · intro step
    exact (s.onward_perform step).position_le
  · rw [perform_scan_fst_iff, ← hsource]
    exact s.scanner.exists_scan_eq_error_iff
  · intro t ht
    rw [← hsource, ← hfilename]
    exact Scanner.yields_of_next hsound (next_eq_of_token ht)

end TokenStream

end ShaderStruct
