import ShaderStruct.Layout.Table
import ShaderStruct.Proofs.Caret
import ShaderStruct.Proofs.Layout.Existence
import ShaderStruct.Proofs.Layout.Extent
import ShaderStruct.Proofs.Serial
import ShaderStruct.Proofs.Suggestion

/-!
# What a layout table tells

A table can be read back. Its lines are the title, the headings and one row for each member, and
white space takes a row apart into what was set in its columns: two spaces stand between columns
however long a number is, and no number and no name that was parsed has white space in it. So a
table tells the layout that it shows.
-/

namespace ShaderStruct

open Decimal (digits)
open Text Lexeme

namespace Text

/-! ### Fields -/

def fields (text : List Char) : List String :=
  ((text.splitOnP isBlank).filter fun field => !field.isEmpty).map String.ofList

structure IsField (text : String) : Prop where
  ne_nil : text.toList ≠ []
  isBlank_eq_false : ∀ c ∈ text.toList, isBlank c = false

-- decided along the text, for there are too many characters to go through them
instance (text : String) : Decidable (IsField text) :=
  decidable_of_iff (text.toList ≠ [] ∧ (text.toList.all fun c => !isBlank c) = true)
    ⟨fun h => ⟨h.1, by simpa using h.2⟩, fun h => ⟨h.ne_nil, by simpa using h.isBlank_eq_false⟩⟩

variable {c : Char} {field : String}

theorem fields_append_cons (hc : isBlank c = true) (front rest : List Char) :
    fields (front ++ c :: rest) = fields front ++ fields rest := by
  rw [fields, List.splitOnP_append_cons _ _ hc, List.filter_append, List.map_append]
  rfl

theorem fields_cons (hc : isBlank c = true) (rest : List Char) :
    fields (c :: rest) = fields rest :=
  fields_append_cons hc [] rest

theorem fields_replicate_append (n : Nat) (rest : List Char) :
    fields (List.replicate n ' ' ++ rest) = fields rest := by
  induction n with
  | zero => rfl
  | succ n ih => rw [List.replicate_succ, List.cons_append, fields_cons (by decide), ih]

theorem IsField.fields_eq (h : IsField field) : fields field.toList = [field] := by
  have hnonempty : field.toList.isEmpty = false := List.isEmpty_eq_false_iff.2 h.ne_nil
  rw [fields, List.splitOnP_eq_singleton h.isBlank_eq_false]
  simp [hnonempty]

theorem IsField.append {more : String} (h : IsField field) (hmore : IsField more) :
    IsField (field ++ more) := by
  refine ⟨by simp [h.ne_nil], ?_⟩
  rw [String.toList_append, List.forall_mem_append]
  exact ⟨h.isBlank_eq_false, hmore.isBlank_eq_false⟩

theorem IsField.fields_append (h : IsField field) (hc : isBlank c = true) (rest : List Char) :
    fields (field.toList ++ c :: rest) = field :: fields rest := by
  rw [fields_append_cons hc, h.fields_eq, List.singleton_append]

/-! ### Lines -/

/-- Text with line feeds between its lines. -/
theorem lines_intercalate {rows : List (List Char)}
    (hrows : ∀ row ∈ rows, row ≠ [] ∧ ∀ c ∈ row, isLineEnd c = false) :
    lines (['\n'].intercalate rows) = rows := by
  induction rows with
  | nil => rfl
  | cons row rest ih =>
    obtain ⟨⟨hne, hwhole⟩, hrest⟩ := List.forall_mem_cons.1 hrows
    cases rest with
    | nil =>
      -- no line feed ends the last line, which counts because it is not empty
      have hlast : linesFrom (row.reverse ++ []) [] = [(row.reverse ++ []).reverse] :=
        if_neg (by simp [hne])
      rw [List.intercalate_singleton, lines, ← List.append_nil row, linesFrom_append hwhole, hlast]
      simp
    | cons next rest =>
      rw [List.intercalate_cons_cons, List.append_assoc, lines, linesFrom_append hwhole,
        linesFrom_lineFeed (Or.inl rfl), List.append_nil, List.reverse_reverse]
      exact congrArg (row :: ·) (ih hrest)

def Spaced (text : List Char) : Prop := ∀ c ∈ text, c = ' ' ∨ isBlank c = false

theorem spaced_append {text more : List Char} :
    Spaced (text ++ more) ↔ Spaced text ∧ Spaced more :=
  List.forall_mem_append

theorem spaced_space {rest : List Char} : Spaced (' ' :: rest) ↔ Spaced rest := by
  simp [Spaced]

theorem IsField.spaced (h : IsField field) : Spaced field.toList :=
  fun c hc => Or.inr (h.isBlank_eq_false c hc)

theorem Spaced.isLineEnd_eq_false {text : List Char} (h : Spaced text) :
    ∀ c ∈ text, isLineEnd c = false := by
  intro c hc
  rcases h c hc with rfl | hblank
  · decide
  · exact isLineEnd_eq_false_of_isBlank hblank

end Text

/-! ### Numbers and names -/

theorem isField_digits {n : Int} (hn : 0 ≤ n) : IsField (digits n) where
  ne_nil := by
    obtain ⟨value, rfl⟩ := Int.eq_ofNat_of_zero_le hn
    rw [Decimal.digits_natCast, Nat.toList_repr]
    exact Nat.toDigits_ne_nil
  isBlank_eq_false c hc := by
    have hdigit := isAsciiDigit_of_mem_digits hn c hc
    exact isBlank_eq_false_of_isWord
      (isWord_of_isIdentifierPart (isIdentifierPart_of_isAsciiDigit hdigit))

theorem isField_sizeText {size : Option Int} (hsize : ∀ n, size = some n → 0 ≤ n) :
    IsField (sizeText size) := by
  cases size with
  | none =>
    change IsField "runtime"
    decide +kernel
  | some n => exact isField_digits (hsize n rfl)

/-- No number is written like the word for sizes that are not known before run time. -/
theorem sizeText_inj {size size' : Option Int} (hsize : ∀ n, size = some n → 0 ≤ n)
    (hsize' : ∀ n, size' = some n → 0 ≤ n) (h : sizeText size = sizeText size') :
    size = size' := by
  -- no number is written like the word for what is sized at run time
  have hword : ∀ {n : Int}, 0 ≤ n → digits n ≠ "runtime" := fun hn =>
    digits_ne hn (c := 'r') (by decide) (by decide)
  cases size with
  | none =>
    cases size' with
    | none => rfl
    | some n => exact absurd h.symm (hword (hsize' n rfl))
  | some m =>
    cases size' with
    | none => exact absurd h (hword (hsize m rfl))
    | some n => rw [eq_of_digits_eq (hsize m rfl) (hsize' n rfl) h]

theorem Lexeme.IsName.isField {name : String} (h : IsName name) : IsField name where
  ne_nil hnil := not_isIdentifier_nil (hnil ▸ h.isIdentifier)
  isBlank_eq_false c hc :=
    isBlank_eq_false_of_isWord (isWord_of_isIdentifierPart (h.isIdentifier.isIdentifierPart c hc))

/-! ### Rows and titles -/

section Rows

variable {offset align size name : String}

theorem toList_flushRight (width : Nat) (text : String) :
    (flushRight width text).toList =
      List.replicate (width - text.length) ' ' ++ text.toList := by
  rw [flushRight, String.toList_append, String.toList_ofList]

theorem fields_flushRight {text : String} (h : IsField text) (width : Nat) (rest : List Char) :
    fields ((flushRight width text).toList ++ ' ' :: rest) = text :: fields rest := by
  rw [toList_flushRight, List.append_assoc, fields_replicate_append, h.fields_append (by decide)]

theorem spaced_flushRight {text : String} (h : IsField text) (width : Nat) :
    Spaced (flushRight width text).toList := by
  rw [toList_flushRight, spaced_append]
  exact ⟨fun c hc => Or.inl (List.eq_of_mem_replicate hc), h.spaced⟩

theorem toList_tableRow : (tableRow offset align size name).toList =
    ' ' :: ' ' :: ((flushRight 6 offset).toList ++ ' ' :: ' ' ::
      ((flushRight 5 align).toList ++ ' ' :: ' ' ::
        ((flushRight 7 size).toList ++ ' ' :: ' ' :: name.toList))) := by
  simp [tableRow]

/-- White space takes a row apart into its columns, whatever their widths. -/
theorem fields_tableRow (hoffset : IsField offset) (halign : IsField align) (hsize : IsField size)
    (hname : IsField name) :
    fields (tableRow offset align size name).toList = [offset, align, size, name] := by
  have hblank : isBlank ' ' = true := by decide
  -- a column ends at the first of the two spaces behind it, even if it is too narrow
  rw [toList_tableRow, fields_cons hblank, fields_cons hblank, fields_flushRight hoffset,
    fields_cons hblank, fields_flushRight halign, fields_cons hblank, fields_flushRight hsize,
    fields_cons hblank, hname.fields_eq]

example : fields (tableRow "12345678" "16" "1234567890" "x").toList =
    ["12345678", "16", "1234567890", "x"] := by
  decide +kernel

theorem spaced_tableRow (hoffset : IsField offset) (halign : IsField align) (hsize : IsField size)
    (hname : IsField name) : Spaced (tableRow offset align size name).toList := by
  simp [toList_tableRow, spaced_space, spaced_append, spaced_flushRight, hoffset, halign, hsize,
    hname.spaced]

end Rows

/-! ### Layouts whose table can be read -/

/-- No number is negative, and the name holds together. -/
structure Placement.Legible (p : Placement) : Prop where
  name : IsField p.name
  offset : 0 ≤ p.offset
  align : 0 ≤ p.align
  size : ∀ n, p.size = some n → 0 ≤ n

namespace Placement.Legible

variable {p q : Placement}

theorem fields_row (h : p.Legible) :
    fields p.row.toList = [digits p.offset, digits p.align, sizeText p.size, p.name] :=
  fields_tableRow (isField_digits h.offset) (isField_digits h.align) (isField_sizeText h.size)
    h.name

theorem spaced_row (h : p.Legible) : Spaced p.row.toList :=
  spaced_tableRow (isField_digits h.offset) (isField_digits h.align) (isField_sizeText h.size)
    h.name

theorem eq_of_row_eq (hp : p.Legible) (hq : q.Legible) (h : p.row.toList = q.row.toList) :
    p = q := by
  have hfields := congrArg fields h
  rw [hp.fields_row, hq.fields_row] at hfields
  simp only [List.cons.injEq, and_true] at hfields
  obtain ⟨hoffset, halign, hsize, hname⟩ := hfields
  rw [Placement.mk.injEq]
  exact ⟨hname, eq_of_digits_eq hp.offset hq.offset hoffset,
    eq_of_digits_eq hp.align hq.align halign, sizeText_inj hp.size hq.size hsize⟩

theorem eq_of_map_row_eq {ps qs : List Placement} (hps : ∀ p ∈ ps, p.Legible)
    (hqs : ∀ q ∈ qs, q.Legible)
    (h : (ps.map fun p => p.row.toList) = qs.map fun q => q.row.toList) : ps = qs := by
  rw [← List.forall₂_eq_eq_eq, List.forall₂_map_left_iff, List.forall₂_map_right_iff] at h
  induction h with
  | nil => rfl
  | cons hrow _ ih =>
    obtain ⟨hp, hps⟩ := List.forall_mem_cons.1 hps
    obtain ⟨hq, hqs⟩ := List.forall_mem_cons.1 hqs
    rw [hp.eq_of_row_eq hq hrow, ih hps hqs]

end Placement.Legible

structure StructLayout.Legible (layout : StructLayout) : Prop where
  name : IsField layout.name
  align : 0 ≤ layout.align
  size : ∀ n, layout.size = some n → 0 ≤ n
  members : ∀ p ∈ layout.members, p.Legible

namespace StructLayout

variable {layout layout' : StructLayout} {text : String}

theorem toList_title (layout : StructLayout) : layout.title.toList =
    "struct".toList ++ ' ' :: (layout.name.toList ++ ' ' :: ("(align".toList ++ ' ' ::
      ((digits layout.align ++ ",").toList ++ ' ' :: ("size".toList ++ ' ' ::
        (sizeText layout.size ++ ")").toList)))) := by
  simp [title, toString]

theorem isField_titleWords : IsField "struct" ∧ IsField "(align" ∧ IsField "size" := by
  decide +kernel

namespace Legible

theorem isField_align (h : layout.Legible) : IsField (digits layout.align ++ ",") :=
  (isField_digits h.align).append (by decide +kernel)

theorem isField_size (h : layout.Legible) : IsField (sizeText layout.size ++ ")") :=
  (isField_sizeText h.size).append (by decide +kernel)

theorem fields_title (h : layout.Legible) : fields layout.title.toList =
    ["struct", layout.name, "(align", digits layout.align ++ ",", "size",
      sizeText layout.size ++ ")"] := by
  have hblank : isBlank ' ' = true := by decide
  obtain ⟨hstruct, halign, hsize⟩ := isField_titleWords
  rw [toList_title, hstruct.fields_append hblank, h.name.fields_append hblank,
    halign.fields_append hblank, h.isField_align.fields_append hblank,
    hsize.fields_append hblank, h.isField_size.fields_eq]

theorem spaced_title (h : layout.Legible) : Spaced layout.title.toList := by
  obtain ⟨hstruct, halign, hsize⟩ := isField_titleWords
  rw [toList_title]
  simp only [spaced_append, spaced_space]
  exact ⟨hstruct.spaced, h.name.spaced, halign.spaced, h.isField_align.spaced, hsize.spaced,
    h.isField_size.spaced⟩

/-- A table has the title, the headings and the rows for its lines. -/
theorem lines_table (h : layout.Legible) (htable : layout.table = .ok text) :
    lines text.toList = layout.title.toList ::
      (tableRow "offset" "align" "size" "name").toList ::
        layout.members.map fun p => p.row.toList := by
  rw [table] at htable
  split at htable
  · obtain rfl := Except.ok.inj htable
    have hheadings : IsField "offset" ∧ IsField "align" ∧ IsField "size" ∧ IsField "name" := by
      decide +kernel
    obtain ⟨hoffset, halign, hsize, hname⟩ := hheadings
    have hspaced := spaced_tableRow hoffset halign hsize hname
    rw [String.toList_intercalate, List.map_cons, List.map_cons, List.map_map]
    refine lines_intercalate (List.forall_mem_cons.2 ⟨⟨?_, h.spaced_title.isLineEnd_eq_false⟩,
      List.forall_mem_cons.2 ⟨⟨?_, hspaced.isLineEnd_eq_false⟩, List.forall_mem_map.2 ?_⟩⟩)
    · simp [toList_title]
    · simp [toList_tableRow]
    · intro p hp
      refine ⟨by simp [Placement.row, toList_tableRow], ?_⟩
      exact (h.members p hp).spaced_row.isLineEnd_eq_false
  · cases htable

/-- A table tells the layout. -/
theorem eq_of_table_eq (h : layout.Legible) (h' : layout'.Legible)
    (htable : layout.table = .ok text) (htable' : layout'.table = .ok text) :
    layout = layout' := by
  have hlines := (h.lines_table htable).symm.trans (h'.lines_table htable')
  obtain ⟨htitle, hrows⟩ := List.cons.inj hlines
  have hfields := congrArg fields htitle
  rw [h.fields_title, h'.fields_title] at hfields
  simp only [List.cons.injEq, and_true, true_and] at hfields
  obtain ⟨hname, halign, hsize⟩ := hfields
  have hmembers := Placement.Legible.eq_of_map_row_eq h.members h'.members (List.cons.inj hrows).2
  rw [StructLayout.mk.injEq]
  exact ⟨hname, eq_of_digits_eq h.align h'.align ((String.append_left_inj _).1 halign),
    sizeText_inj h.size h'.size ((String.append_left_inj _).1 hsize), hmembers⟩

end Legible

end StructLayout

/-! ### Tables of parsed structs -/

theorem Struct.name_of_layout {decl : Struct} {layout : StructLayout}
    (h : decl.layout = .ok layout) : layout.name = decl.name := by
  obtain rfl := decl.layout_ends.eq_of_ok h
  obtain ⟨name, members⟩ := decl
  rfl

theorem Struct.Lays.exists_place {decl : Struct} {layout : StructLayout} (h : decl.Lays layout)
    {i : Nat} {m : Member} (hm : decl.members[i]? = some m) :
    ∃ p, layout.members[i]? = some p ∧ p.name = m.name := by
  have hname : (layout.members.map (·.name))[i]? = some m.name := by
    rw [h.chain.map_name, List.getElem?_map, hm, Option.map_some]
  rwa [List.getElem?_map, Option.map_eq_some_iff] at hname

/-- What the parser returns has no negative numbers, and so none in its layout. -/
theorem Produced.legible {decl : Struct} (hproduced : Produced decl) {layout : StructLayout}
    (hlayout : decl.layout = .ok layout) : layout.Legible := by
  have hlays := Struct.lays_of_layout hlayout
  have hsizes := hlays.sizes_nonneg hproduced.proper
  have halign := isAlign_of_chain decl.members hlays.chain
  refine ⟨?_, Int.le_of_lt hlays.isAlign.pos, decl.size_nonneg hproduced.proper hlayout, ?_⟩
  · rw [Struct.name_of_layout hlayout]
    exact hproduced.isName.isField
  · intro p hp
    have hname : p.name ∈ decl.members.map (·.name) :=
      hlays.chain.map_name ▸ List.mem_map_of_mem hp
    obtain ⟨m, hm, hname⟩ := List.mem_map.1 hname
    refine ⟨?_, hlays.chain.reached_le hsizes p hp, Int.le_of_lt (halign p hp).pos, hsizes p hp⟩
    rw [← hname]
    exact (hproduced.isName_member hm).isField

/-- **Layout tables.** The table of a layout that a parsed struct has is as many lines as there are
members, behind a title and a line of headings. White space takes the line of each member apart into
its offset, its alignment, its size and its name, whatever the number of digits. So the tables of
two such layouts are equal exactly if the layouts are. -/
theorem struct_layout_table {decl : Struct} {layout : StructLayout} {text : String}
    (hproduced : Produced decl) (hlayout : decl.layout = .ok layout)
    (htable : layout.table = .ok text) :
    (lines text.toList).length = 2 + decl.members.length ∧
    (lines text.toList)[0]? = some
      (s!"struct {decl.name} (align {digits layout.align}, size {sizeText layout.size})").toList ∧
    (∀ i m, decl.members[i]? = some m → ∃ p line, layout.members[i]? = some p ∧
      (lines text.toList)[2 + i]? = some line ∧
      fields line = [digits p.offset, digits p.align, sizeText p.size, m.name]) ∧
    ∀ decl' layout' text', Produced decl' → decl'.layout = .ok layout' →
      layout'.table = .ok text' → (text = text' ↔ layout = layout') := by
  have hlegible := hproduced.legible hlayout
  have hlays := Struct.lays_of_layout hlayout
  have hlines := hlegible.lines_table htable
  rw [hlines]
  refine ⟨?_, ?_, ?_, ?_⟩
  · rw [List.length_cons, List.length_cons, List.length_map, hlays.chain.length_eq]
    omega
  · rw [← Struct.name_of_layout hlayout]
    rfl
  · intro i m hm
    obtain ⟨p, hp, hname⟩ := hlays.exists_place hm
    refine ⟨p, p.row.toList, hp, ?_, ?_⟩
    · rw [Nat.add_comm, List.getElem?_cons_succ, List.getElem?_cons_succ, List.getElem?_map, hp,
        Option.map_some]
    · rw [(hlegible.members p (List.mem_of_getElem? hp)).fields_row, hname]
  · intro decl' layout' text' hproduced' hlayout' htable'
    constructor
    · rintro rfl
      exact hlegible.eq_of_table_eq (hproduced'.legible hlayout') htable htable'
    · rintro rfl
      exact Except.ok.inj (htable.symm.trans htable')

theorem struct_layout_table_of_nested :
    ∃ layout text, nestedStruct.layout = .ok layout ∧ layout.table = .ok text ∧
      (lines text.toList).length = 5 ∧
      (lines text.toList)[0]? = some "struct S (align 32, size runtime)".toList ∧
      ∃ line, (lines text.toList)[4]? = some line ∧ fields line = ["48", "16", "runtime", "t"] := by
  have hlayout : nestedStruct.layout = .ok ⟨"S", 32, none, [⟨"p", 0, 32, some 16⟩,
      ⟨"m", 16, 8, some 32⟩, ⟨"t", 48, 16, none⟩]⟩ :=
    except_eq_ok_of_toOption (by decide +kernel)
  have htable : ∃ text, StructLayout.table ⟨"S", 32, none, [⟨"p", 0, 32, some 16⟩,
      ⟨"m", 16, 8, some 32⟩, ⟨"t", 48, 16, none⟩]⟩ = .ok text :=
    ⟨_, if_pos (by decide +kernel)⟩
  obtain ⟨text, htable⟩ := htable
  obtain ⟨hlength, htitle, hrows, -⟩ := struct_layout_table produced_nestedStruct hlayout htable
  obtain ⟨p, line, hp, hline, hfields⟩ := hrows 2 _ rfl
  obtain rfl := Option.some.inj hp
  exact ⟨_, text, hlayout, htable, hlength, htitle, line, hline, hfields⟩

end ShaderStruct
