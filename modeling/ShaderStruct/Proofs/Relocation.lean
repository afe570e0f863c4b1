import ShaderStruct.Proofs.Partition

/-!
# Sources behind other texts

A lexeme is found by what follows it, never by what stands in front. So a text that is put behind
another is cut into the same gaps and tokens, and of the tokens only the places change. A scanner
in the middle of a source, wherever it was dropped, therefore has the tokens ahead that its rest
would have as a source of its own.
-/

namespace ShaderStruct

open Text Lexeme

/-- The token where it stands when its source is put behind a text. Its column changes only if it is
in the first line. -/
def Token.behind (front : List Char) (t : Token) : Token :=
  { t with
    offset := t.offset + front.length
    line := t.line + front.count '\n'
    column :=
      if t.line = 1 then t.column + (front.length - Scanner.throughLastLineFeed front)
      else t.column }

@[simp] theorem Token.kind_behind (front : List Char) (t : Token) :
    (t.behind front).kind = t.kind := rfl

@[simp] theorem Token.text_behind (front : List Char) (t : Token) :
    (t.behind front).text = t.text := rfl

@[simp] theorem Token.word_behind (front : List Char) (t : Token) :
    (t.behind front).word = t.word := rfl

/-- A token has moved with its source: lines add up, and columns do in the first line. -/
theorem Token.PlacedBehind.behind {before : List Char} {filename : String} {t : Token}
    (h : t.PlacedBehind before filename) (front : List Char) :
    (t.behind front).PlacedBehind (front ++ before) filename := by
  obtain ⟨hfilename, hoffset, hline, line, hlast, hcolumn⟩ := h
  refine ⟨hfilename, ?_, ?_, ?_⟩
  · rw [Token.behind, hoffset, List.length_append]
    push_cast
    omega
  · rw [Token.behind, hline, List.count_append]
    push_cast
    omega
  · by_cases hmem : '\n' ∈ before
    · have hlater : t.line ≠ 1 := by
        have hcount := List.count_pos_iff.2 hmem
        omega
      exact ⟨line, hlast.append_of_mem hmem front, by rw [Token.behind, if_neg hlater, hcolumn]⟩
    · have hfirst : t.line = 1 := by
        rw [hline, List.count_eq_zero.2 hmem]
        rfl
      obtain rfl : before = line := by
        obtain ⟨-, heq | ⟨earlier, rfl⟩⟩ := hlast
        · exact heq
        · simp at hmem
      obtain ⟨lineFront, hfront⟩ := exists_lastLine front
      have hlength := Scanner.throughLastLineFeed_add_length hfront
      refine ⟨_, hfront.append_of_notMem hmem, ?_⟩
      rw [Token.behind, if_pos hfirst, hcolumn, List.length_append]
      push_cast
      omega

def pieceBehind (front : List Char) (piece : List Char × Token) : List Char × Token :=
  (piece.1, piece.2.behind front)

theorem woven_map_pieceBehind (front : List Char) (pieces : List (List Char × Token))
    (last : List Char) : woven (pieces.map (pieceBehind front)) last = woven pieces last := by
  rw [woven, woven, List.flatMap_map]
  rfl

/-- A text is cut in the same way behind another one. -/
theorem Partition.behind {filename : String} {before last : List Char}
    {pieces : List (List Char × Token)} (h : Partition filename before pieces last)
    (front : List Char) :
    Partition filename (front ++ before) (pieces.map (pieceBehind front)) last := by
  induction h with
  | last hgap => exact .last hgap
  | piece hgap hclear hfound hplace _ ih =>
    have hplace' := hplace.behind front
    rw [← List.append_assoc] at hplace'
    rw [← List.append_assoc, ← List.append_assoc] at ih
    refine .piece ?_ ?_ ?_ hplace' ih
    · rwa [woven_map_pieceBehind]
    · rwa [woven_map_pieceBehind]
    · rwa [woven_map_pieceBehind]

/-- **A scan depends on what is ahead only.** The tokens ahead of a scanner are those that its rest
has as a source of its own, moved to where they stand. -/
theorem Scanner.tokens_eq_behind {s : Scanner} (h : s.Sound) :
    ∃ tokens, tokenize (String.ofList s.rest) s.filename = .ok tokens ∧
      s.tokens = .ok (tokens.map (Token.behind s.passed)) := by
  obtain ⟨pieces, last, htokens, hwoven, hpieces⟩ := exists_partition h
  obtain ⟨pieces', last', htokens', hwoven', hpieces'⟩ :=
    exists_partition_of_source (String.ofList s.rest) s.filename
  have hmoved := hpieces'.behind s.passed
  rw [List.append_nil] at hmoved
  rw [String.toList_ofList, ← hwoven, ← woven_map_pieceBehind s.passed] at hwoven'
  obtain ⟨rfl, -⟩ := hmoved.eq hpieces hwoven'
  refine ⟨_, htokens', ?_⟩
  rw [htokens, List.map_map, List.map_map]
  rfl

end ShaderStruct
