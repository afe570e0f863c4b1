import ShaderStruct.Proofs.Relocation
import ShaderStruct.Proofs.Respacing

/-!
# Names in the place of identifiers

A name that is put in the place of an identifier is one token there, since it ends where the
identifier did. What is behind it is only moved. What is in front keeps its tokens too, unless the
token that the name touches would go on into it; no punctuator does.
-/

namespace ShaderStruct

open Text Lexeme Scanner

variable {filename name : String} {before last : List Char} {f : Token}

/-- A gap in front of a token is one in front of anything. -/
theorem Gap.of_clear {gap after : List Char} (h : Gap gap after) (hclear : Clear after)
    (hne : after ≠ []) (after' : List Char) : Gap gap after' := by
  induction h with
  | nil => exact .nil after'
  | blank hc _ ih => exact .blank hc (ih hclear hne)
  | @comment body gap after hbody hend _ ih =>
    refine .comment hbody ?_ (ih hclear hne)
    cases gap with
    | nil =>
      -- The comment would have to end at a line end, but a token comes.
      obtain ⟨c, more, rfl⟩ := List.exists_cons_of_ne_nil hne
      have hblank := hclear.1 c rfl
      rcases hend c rfl with rfl | rfl <;> exact absurd hblank (by decide)
    | cons d gap => exact hend

/-- What is cut in one place is cut in the same way in another. -/
theorem Partition.moved {pieces : List (List Char × Token)}
    (h : Partition filename before pieces last) (before' : List Char) :
    ∃ pieces', Partition filename before' pieces' last ∧ woven pieces' last = woven pieces last ∧
      pieces'.map (fun piece => piece.2.word) = pieces.map (fun piece => piece.2.word) := by
  obtain ⟨alone, last', -, hwoven, halone⟩ :=
    exists_partition_of_source (String.ofList (woven pieces last)) filename
  rw [String.toList_ofList] at hwoven
  have hhere := halone.behind before
  have hthere := halone.behind before'
  rw [List.append_nil] at hhere hthere
  obtain ⟨rfl, rfl⟩ := hhere.eq h ((woven_map_pieceBehind before alone last').trans hwoven)
  refine ⟨_, hthere, ?_, ?_⟩
  · rw [woven_map_pieceBehind, woven_map_pieceBehind]
  · simp [pieceBehind]

def Token.respelled (t : Token) (name : String) : Token := { t with text := name }

theorem Token.PlacedBehind.respelled {t : Token} (h : t.PlacedBehind before filename)
    (name : String) : (t.respelled name).PlacedBehind before filename :=
  ⟨h.filename_eq, h.offset_eq, h.line_eq, h.column_eq⟩

/-- A gap that was in front of a token, and a token that is found behind it now. -/
theorem Partition.of_first? {gap after : List Char} {t : Token} {pieces : List (List Char × Token)}
    (hgap : Gap gap after) (hclear : Clear after) (hne : after ≠ [])
    (hfirst : Lexeme.first? (t.text.toList ++ woven pieces last) = some (t.kind, t.text.toList))
    (hkind : t.kind ≠ .comment) (hplace : t.PlacedBehind (before ++ gap) filename)
    (hmore : Partition filename (before ++ gap ++ t.text.toList) pieces last) :
    Partition filename before ((gap, t) :: pieces) last := by
  have hagain := Scanner.clear_of_first? hfirst hkind
  exact .piece (hgap.of_clear hclear hne _) hagain ((found_iff hagain).2 hfirst) hplace hmore

/-- A text starts with its first token, or with the gap in front of it if there is one. -/
theorem Partition.head?_woven {front back back' : List (List Char × Token)} {gap : List Char}
    {t t' : Token} (h : Partition filename before (front ++ (gap, t) :: back) last)
    (hne : front ≠ [] ∨ gap ≠ []) :
    (woven (front ++ (gap, t') :: back') last).head? =
      (woven (front ++ (gap, t) :: back) last).head? := by
  cases front with
  | nil =>
    have hgap := hne.resolve_left (not_not.2 rfl)
    rw [List.nil_append, List.nil_append, woven_cons, woven_cons, List.head?_append_of_ne_nil _ hgap,
      List.head?_append_of_ne_nil _ hgap]
  | cons piece front =>
    obtain ⟨gap', u⟩ := piece
    have hfirst : gap' ++ u.text.toList ≠ [] := by simp [first?_ne_nil h.first?.1]
    rw [List.cons_append, List.cons_append, woven_cons, woven_cons, ← List.append_assoc,
      ← List.append_assoc, List.head?_append_of_ne_nil _ hfirst,
      List.head?_append_of_ne_nil _ hfirst]

/-- **A name takes the place of an identifier.** -/
theorem Partition.respelled {front back : List (List Char × Token)} {gap : List Char}
    (h : Partition filename before (front ++ (gap, f) :: back) last) (hkind : f.kind = .identifier)
    (hname : IsName name) (hfront : ∀ piece ∈ front.getLast?, piece.2.kind = .punctuator) :
    ∃ back', Partition filename before (front ++ (gap, f.respelled name) :: back') last ∧
      woven back' last = woven back last ∧
      back'.map (fun piece => piece.2.word) = back.map (fun piece => piece.2.word) := by
  induction front generalizing before with
  | nil =>
    cases h with
    | piece hgap hclear hfound hplace hmore =>
      have hfirst := (found_iff hclear).1 hfound
      have hne := ne_nil_of_first? hfirst
      rw [hkind] at hfirst
      obtain ⟨-, rest, htext, hstops⟩ :=
        identifier?_eq_some_iff.1 (first?_eq_some_identifier hfirst).2
      obtain rfl := List.append_cancel_left htext
      obtain ⟨back', hback, hwoven, hwords⟩ := hmore.moved (before ++ gap ++ name.toList)
      have hagain := first?_identifier hname hstops
      rw [← hwoven, ← hkind] at hagain
      refine ⟨back', .of_first? hgap hclear hne hagain hfound.ne_comment (hplace.respelled name) ?_,
        hwoven, hwords⟩
      exact hback
  | cons piece front ih =>
    obtain ⟨gap', t⟩ := piece
    cases h with
    | piece hgap hclear hfound hplace hmore =>
      have hfirst := (found_iff hclear).1 hfound
      have hbehind : ∀ piece ∈ front.getLast?, piece.2.kind = .punctuator := by
        cases front with
        | nil => simp
        | cons piece front => rwa [List.getLast?_cons_cons] at hfront
      obtain ⟨back', hback, hwoven, hwords⟩ := ih hmore hbehind
      refine ⟨back', .of_first? hgap hclear (ne_nil_of_first? hfirst) ?_ hfound.ne_comment hplace
        hback, hwoven, hwords⟩
      by_cases htouches : front = [] ∧ gap = []
      · obtain ⟨rfl, rfl⟩ := htouches
        have hpunctuator : t.kind = .punctuator := hfront (gap', t) rfl
        rw [hpunctuator] at hfound ⊢
        cases hfound with
        | punctuator _ _ _ hlongest =>
          obtain ⟨c, htext, hmem⟩ := hlongest.mem
          rw [htext]
          exact first?_punctuator hmem
      · exact first?_append_of_head? hfirst hfound.ne_comment
          (hmore.head?_woven (not_and_or.1 htouches))

theorem woven_append (front back : List (List Char × Token)) (gap last : List Char) (t : Token) :
    woven (front ++ (gap, t) :: back) last =
      woven front gap ++ (t.text.toList ++ woven back last) := by
  simp [woven]

/-- A token stands behind all that comes before it. -/
theorem Partition.offset_eq {front back : List (List Char × Token)} {gap : List Char}
    (h : Partition filename before (front ++ (gap, f) :: back) last) :
    f.offset = (before ++ woven front gap).length := by
  induction front generalizing before with
  | nil =>
    cases h with
    | piece _ _ _ hplace _ => exact hplace.offset_eq
  | cons piece front ih =>
    obtain ⟨gap', t⟩ := piece
    cases h with
    | piece _ _ _ _ hmore =>
      rw [ih hmore, woven_cons]
      simp only [List.append_assoc]

def replaced (source : String) (t : Token) (text : String) : String :=
  String.ofList (source.toList.take t.offset.toNat ++ text.toList ++
    source.toList.drop (t.offset.toNat + t.text.length))

/-- **The scanner finds the name in the place of the identifier.** -/
theorem tokenize_replaced {source : String} {front rest : List Token}
    (h : tokenize source filename = .ok (front ++ f :: rest)) (hkind : f.kind = .identifier)
    (hname : IsName name) (hfront : ∀ t ∈ front.getLast?, t.kind = .punctuator) :
    ∃ rest', tokenize (replaced source f name) filename =
        .ok (front ++ f.respelled name :: rest') ∧
      rest'.map Token.word = rest.map Token.word := by
  obtain ⟨pieces, last, htokens, hwoven, hpieces⟩ := exists_partition_of_source source filename
  obtain ⟨before, behind, rfl, rfl, hbehind⟩ :=
    List.map_eq_append_iff.1 (Except.ok.inj (htokens.symm.trans h))
  obtain ⟨⟨gap, t⟩, back, rfl, ht, rfl⟩ := List.map_eq_cons_iff.1 hbehind
  obtain rfl : f = t := ht.symm
  have hlast : ∀ piece ∈ before.getLast?, piece.2.kind = .punctuator := by
    intro piece hpiece
    refine hfront piece.2 ?_
    rw [List.getLast?_map, hpiece]
    rfl
  obtain ⟨back', hback, hbackWoven, hwords⟩ := hpieces.respelled hkind hname hlast
  have hoffset := hpieces.offset_eq
  rw [List.nil_append] at hoffset
  have hreplaced : (replaced source f name).toList =
      woven (before ++ (gap, f.respelled name) :: back') last := by
    rw [replaced, String.toList_ofList, ← hwoven, woven_append, woven_append, hbackWoven, hoffset,
      Int.toNat_natCast, List.take_left, ← List.drop_drop, List.drop_left, ← String.length_toList,
      List.drop_left, List.append_assoc]
    rfl
  have hrespelled := hback.tokenize_eq hreplaced.symm
  rw [List.map_append, List.map_cons] at hrespelled
  refine ⟨back'.map Prod.snd, hrespelled, ?_⟩
  rw [List.map_map, List.map_map]
  exact hwords

end ShaderStruct
