import ShaderStruct.Command.Form
import ShaderStruct.Proofs.Counterpart
import ShaderStruct.Proofs.Seam

/-!
# Formatting

The canonical texts of the declarations of a text, one below the other, declare the same again: the
declarations are new, so they have other stamps, but they are equal one by one and their references
lead to the same places. Formatting once more changes nothing.
-/

namespace ShaderStruct

/-! ### Canonical texts one below the other -/

/-- A blank line between texts is no part of any word. -/
theorem words_intercalate (texts : List String) :
    words ("\n\n".intercalate texts).toList = texts.flatMap fun text => words text.toList := by
  induction texts with
  | nil => exact words_nil
  | cons text texts ih =>
    cases texts with
    | nil => simp
    | cons next texts =>
      have htext : ("\n\n".intercalate (text :: next :: texts)).toList =
          text.toList ++ '\n' :: '\n' :: ("\n\n".intercalate (next :: texts)).toList := by
        rw [String.intercalate_cons_cons]
        simp
      rw [htext, words_append_lineFeed, words_cons_of_isBlank (by decide), ih]
      rfl

theorem words_append_newline (text : String) : words (text ++ "\n").toList = words text.toList := by
  have htext : (text ++ "\n").toList = text.toList ++ '\n' :: [] := by simp
  rw [htext, words_append_lineFeed, words_nil, List.append_nil]

theorem block_canonical {decl : Struct} (h : decl.isWritable = true) :
    Form.canonical.block decl = .ok decl.render := by
  rw [Form.block, Struct.text, Node.text, Node.isWritable, if_pos h, Node.render]
  rfl

theorem render_canonical {decls : List Struct} (h : ∀ decl ∈ decls, decl.isWritable = true) :
    Form.canonical.render decls = .ok ("\n\n".intercalate (decls.map Struct.render)) := by
  have hblocks : decls.mapM Form.canonical.block = .ok (decls.map Struct.render) := by
    induction decls with
    | nil => rfl
    | cons decl decls ih =>
      obtain ⟨hdecl, hdecls⟩ := List.forall_mem_cons.1 h
      rw [List.mapM_cons, block_canonical hdecl, ih hdecls]
      rfl
  rw [Form.render, hblocks]
  rfl

namespace Grammar

variable {n n' : Nat} {scope scope' after : Scope} {ws : List Word} {declared : List Declared}

/-! ### Rows declared again -/

theorem Declares.known_words (h : Declares scope ws declared after) : Known ws := by
  obtain ⟨trees, rfl, -⟩ := h.exists_trees
  intro w hw
  obtain ⟨tree, -, hw⟩ := List.mem_flatMap.1 hw
  exact tree.known_words w hw

theorem Declares.isWritable (h : Declares scope ws declared after) :
    ∀ decl ∈ declared.map Declared.decl, decl.isWritable = true := by
  induction h with
  | nil => simp
  | cons hsentence _ ih =>
    obtain ⟨tree, -, hdecl⟩ := hsentence
    exact List.forall_mem_cons.2 ⟨tree.isWritable_of_meaning hdecl, ih⟩

/-- The words of the canonical texts of a row declare counterparts. -/
theorem Declares.exists_matches (h : Declares scope ws declared after) (hnamed : Named ws)
    (hscope : scope.Counterpart n n' scope') :
    ∃ declared' after',
      Declares scope' (declared.flatMap fun d => words d.decl.render.toList) declared' after' ∧
      List.Forall₂ (Declared.Matches (Declared.Counterpart n n')) declared declared' := by
  induction h generalizing scope' with
  | nil => exact ⟨[], scope', .nil scope', .nil⟩
  | @cons scope _ front back decl later hsentence hlater ih =>
    obtain ⟨tree, rfl, hdecl⟩ := hsentence
    obtain ⟨hfirst, hothers⟩ := named_append.1 hnamed
    obtain ⟨decl', hdecl', hsame⟩ := StructTree.exists_same hscope hdecl
    obtain ⟨later', after', hrow, hmatches⟩ := ih hothers (hscope.declare hsame)
    have hsentence' : Sentence scope' (words decl.render.toList) decl' :=
      ⟨tree.normal, (words_render_struct hdecl hfirst).symm, tree.meaning_normal.trans hdecl'⟩
    have hreferences := StructTree.references_counterpart hscope hdecl hdecl'
    exact ⟨_, after', .cons hsentence' hrow, .cons ⟨hsame, hreferences⟩ hmatches⟩

/-- **Formatting is stable.** The declarations of a text can be rendered, and the result, with or
without a line feed behind it, declares as many again among the same known ones. They are equal one
by one, the references in them lead to the same places, and they are rendered alike. -/
theorem parseStructs_render {source filename : String}
    (h : parseStructs scope source filename = .ok (declared, after)) :
    ∃ out, Form.canonical.render (declared.map Declared.decl) = .ok out ∧
      ∀ scope' : Scope, scope'.known = scope.known →
        ∀ text filename', text = out ∨ text = out ++ "\n" →
          ∃ declared' after', parseStructs scope' text filename' = .ok (declared', after') ∧
            List.Forall₂ (Declared.Matches
              (SamePlace (scope.known ++ declared) (scope'.known ++ declared')))
              declared declared' ∧
            Form.canonical.render (declared'.map Declared.decl) = .ok out := by
  have hrow := parseStructs_eq_ok_iff.1 h
  have hnamed : Named (words source.toList) := by
    intro name hname
    exact isName_of_mem_words hrow.known_words hname
  refine ⟨_, render_canonical hrow.isWritable, ?_⟩
  intro scope' hknown text filename' htext
  obtain ⟨declared', after', hrow', hmatches⟩ :=
    hrow.exists_matches hnamed (Scope.counterpart_of_known_eq hknown)
  have hrenders : (declared'.map Declared.decl).map Struct.render =
      (declared.map Declared.decl).map Struct.render := by
    rw [List.map_map, List.map_map, eq_comm, ← List.forall₂_eq_eq_eq, List.forall₂_map_left_iff,
      List.forall₂_map_right_iff]
    exact hmatches.imp fun d d' hmatch => Struct.render_eq_of_same d.decl d'.decl hmatch.1
  have hwords : words text.toList = declared.flatMap fun d => words d.decl.render.toList := by
    have hout := words_intercalate ((declared.map Declared.decl).map Struct.render)
    rw [List.map_map, List.flatMap_map] at hout
    rcases htext with rfl | rfl
    · rw [List.map_map]
      exact hout
    · rw [words_append_newline, List.map_map]
      exact hout
  refine ⟨declared', after', parseStructs_eq_ok_iff.2 (hwords ▸ hrow'), ?_, ?_⟩
  · rw [List.forall₂_iff_zip]
    refine ⟨hmatches.length_eq, ?_⟩
    intro d d' hzip
    obtain ⟨hsame, hreferences⟩ := List.forall₂_zip hmatches hzip
    obtain ⟨hd, hd'⟩ := List.of_mem_zip hzip
    refine ⟨hsame, List.forall₂_iff_zip.2 ⟨hreferences.length_eq, ?_⟩⟩
    intro target target' htargets
    obtain ⟨htarget, htarget'⟩ := List.of_mem_zip htargets
    exact hrow.samePlace hrow' hknown (hrow.mem_of_mem_references hd htarget)
      (hrow'.mem_of_mem_references hd' htarget') (List.forall₂_zip hreferences htargets).rank
  · rw [render_canonical hrow'.isWritable, hrenders]

def hiddenStruct : Struct := ⟨"A", [⟨"x", .scalar .f32, []⟩]⟩

def hidingStruct : Struct := ⟨"A", [⟨"a", .reference ⟨0, hiddenStruct⟩, []⟩]⟩

/-- The last declaration refers to the second of its name. -/
def hiddenRow : List Declared :=
  [⟨0, hiddenStruct⟩, ⟨1, hidingStruct⟩, ⟨2, ⟨"B", [⟨"a", .reference ⟨1, hidingStruct⟩, []⟩]⟩⟩]

def hiddenRowText : String :=
  "struct A \x7b\n  x: f32,\n\x7d\n\n" ++ "struct A \x7b\n  a: A,\n\x7d\n\n" ++
    "struct B \x7b\n  a: A,\n\x7d"

theorem parseStructs_render_of_hidden :
    ∃ after,
      parseStructs .empty "A\x7bx:f32\x7dA\x7ba:A\x7dB\x7ba:A\x7d" "" = .ok (hiddenRow, after) ∧
      Form.canonical.render (hiddenRow.map Declared.decl) = .ok hiddenRowText ∧
      ∀ scope' : Scope, scope'.known = [] →
        ∀ text filename', text = hiddenRowText ∨ text = hiddenRowText ++ "\n" →
          ∃ declared' after', parseStructs scope' text filename' = .ok (declared', after') ∧
            List.Forall₂ (Declared.Matches (SamePlace hiddenRow declared')) hiddenRow declared' ∧
            Form.canonical.render (declared'.map Declared.decl) = .ok hiddenRowText := by
  have hwords : words "A\x7bx:f32\x7dA\x7ba:A\x7dB\x7ba:A\x7d".toList =
      StructTree.words ⟨false, "A", .last ⟨[], "x", .scalar .f32⟩⟩ ++
        (StructTree.words ⟨false, "A", .last ⟨[], "a", .named "A"⟩⟩ ++
          (StructTree.words ⟨false, "B", .last ⟨[], "a", .named "A"⟩⟩ ++ [])) :=
    words_eq_of_wordsWithin 30 (by decide +kernel)
  obtain ⟨after, hrow⟩ : ∃ after, Declares .empty
      (words "A\x7bx:f32\x7dA\x7ba:A\x7dB\x7ba:A\x7d".toList) hiddenRow after := by
    rw [hwords]
    exact ⟨_, .cons ⟨_, rfl, rfl⟩ (.cons ⟨_, rfl, rfl⟩ (.cons ⟨_, rfl, rfl⟩ (.nil _)))⟩
  have hparse : parseStructs .empty "A\x7bx:f32\x7dA\x7ba:A\x7dB\x7ba:A\x7d" "" =
      .ok (hiddenRow, after) := parseStructs_eq_ok_iff.2 hrow
  have hwritable : ∀ decl ∈ hiddenRow.map Declared.decl, decl.isWritable = true := by
    decide +kernel
  have htext : "\n\n".intercalate ((hiddenRow.map Declared.decl).map Struct.render) =
      hiddenRowText := by
    decide +kernel
  have hcanonical := htext ▸ render_canonical hwritable
  obtain ⟨out, hout, hagain⟩ := parseStructs_render hparse
  obtain rfl := Except.ok.inj (hout.symm.trans hcanonical)
  refine ⟨after, hparse, hcanonical, ?_⟩
  intro scope' hknown
  have hagain := hagain scope' hknown
  rwa [hknown] at hagain

end Grammar

end ShaderStruct
