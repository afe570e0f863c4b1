import ShaderStruct.Proofs.Layout.Existence
import ShaderStruct.Proofs.Printable

/-!
# Layouts and the limit on digits

A struct is judged if it gets a layout that can be shown as a table, or a layout problem that says
why not. Only one thing can come between, an integer that is too long to be written: in the message
about a problem, in the announcement of a layout, or in the table. The product of counts that are
short enough each may be one.

A table shows more than what was announced. If the struct has a size this does not matter, since all
offsets and sizes in it lie below that; behind a long array, an array sized at run time hides it.
-/

namespace ShaderStruct

open Grammar (isWritable_iff_lt)

/-! ### Tables -/

namespace StructLayout

variable {layout : StructLayout}

theorem exists_table_iff : (∃ text, layout.table = .ok text) ↔ layout.isWritable = true := by
  rw [table]
  by_cases h : layout.isWritable = true
  · rw [if_pos h]
    exact ⟨fun _ => h, fun _ => ⟨_, rfl⟩⟩
  · rw [if_neg h]
    exact ⟨nofun, fun hwritable => absurd hwritable h⟩

theorem eq_of_table_eq_error {e : NumeralError} (h : layout.table = .error e) :
    layout.isWritable ≠ true ∧ e = .tooLongToWrite := by
  rw [table] at h
  split at h
  · cases h
  · next hwritable => exact ⟨hwritable, (Except.error.inj h).symm⟩

end StructLayout

/-! ### Sized structs -/

theorem isWritable_of_le {m n : Int} (hm : Decimal.isWritable m = true) (hn : 0 ≤ n)
    (hle : n ≤ m) : Decimal.isWritable n = true := by
  have hlt := (isWritable_iff_lt (Int.le_trans hn hle)).1 hm
  exact (isWritable_iff_lt hn).2 (Int.lt_of_le_of_lt hle hlt)

theorem Struct.isAnnounceable_of_layout {decl : Struct} {layout : StructLayout}
    (h : decl.layout = .ok layout) : layout.isAnnounceable = true := by
  obtain ⟨hshareable, htellable⟩ := decl.layout_ends.exists_ok_iff.1 ⟨layout, h⟩
  obtain rfl := decl.layout_ends.eq_of_ok h
  obtain ⟨name, members⟩ := decl
  exact (htellable hshareable.1).2 hshareable.2

/-- No number in the layout of a sized struct is greater than its size or its alignment. -/
theorem Struct.isWritable_of_sized {decl : Struct} {layout : StructLayout}
    (hproper : decl.Proper) (h : decl.layout = .ok layout) {total : Int}
    (htotal : layout.size = some total) : layout.isWritable = true := by
  have hlays := Struct.lays_of_layout h
  have hannounced := Struct.isAnnounceable_of_layout h
  rw [StructLayout.isAnnounceable, Bool.and_eq_true] at hannounced
  obtain ⟨halign, hsize⟩ := hannounced
  rw [htotal, Option.all_some] at hsize
  have hsizes := hlays.sizes_nonneg hproper
  rw [StructLayout.isWritable, halign, htotal, Option.all_some, hsize, Bool.true_and,
    Bool.true_and, List.all_eq_true]
  -- offsets and sizes lie within the size of the struct, and alignments below its own
  intro p hp
  have hstart := hlays.chain.reached_le hsizes p hp
  obtain ⟨size, hpsize, hend⟩ := hlays.end_le_size hsizes htotal hp
  have hnonneg := hsizes p hp size hpsize
  have hpalign := isAlign_of_chain decl.members hlays.chain p hp
  have hle : p.align ≤ layout.align := by
    rw [hlays.align]
    exact le_strictestAlign hp
  rw [Placement.isWritable, hpsize, Option.all_some, isWritable_of_le hsize hstart (by omega),
    isWritable_of_le halign (Int.le_of_lt hpalign.pos) hle,
    isWritable_of_le hsize hnonneg (by omega)]
  rfl

/-! ### Long arrays -/

section LongArrays

variable {count : Int}

def floatArray (count : Int) : Member := ⟨"a", .fixedArray (.scalar .f32) count, []⟩

theorem extent_floatArray (count : Int) :
    (floatArray count).type.extent = ⟨4, some (count * 4)⟩ := by
  have hstride : roundUp 4 4 = 4 := by decide
  simp [floatArray, Node.extent, Scalar.bytes, hstride]

theorem arrange_floatArray (count : Int) (rest : List Member) :
    arrange 0 (floatArray count :: rest) =
      ⟨"a", 0, 4, some (count * 4)⟩ :: arrange (count * 4) rest := by
  have hextent := extent_floatArray count
  rw [floatArray] at hextent ⊢
  simp [arrange, hextent, TypeLayout.withAttributes, alignsOf, sizesOf, Placement.reach,
    roundUp_zero]

theorem hostShareable_floatArray (hcount : count ≠ 0) :
    (floatArray count).type.HostShareable ∧
      Suit (floatArray count).type.extent (floatArray count).attributes :=
  ⟨⟨trivial, nofun, hcount⟩, suit_nil⟩

/-- The size of the array is told as soon as its struct is laid out. -/
theorem layout_of_long (hcount : 0 < count) (hlong : ¬ Decimal.isWritable (count * 4) = true) :
    (Struct.mk "A" [floatArray count]).layout = .error (.numeral .tooLongToWrite) := by
  apply (Struct.layout_ends _).eq_tooLong
  intro htellable
  have hshareable := hostShareable_floatArray (Int.ne_of_gt hcount)
  have hannounced := (htellable (List.cons_ne_nil _ _)).2
    (areHostShareable_iff.2 ⟨List.forall_mem_singleton.2 hshareable, nofun⟩)
  have hsize : (Struct.mk "A" [floatArray count]).arrangement.size =
      some (roundUp 4 (count * 4)) := by
    simp [Struct.arrangement, arrange_floatArray, arrange, endOf?, strictestAlign]
  have hle : count * 4 ≤ roundUp 4 (count * 4) := le_roundUp (by decide) _
  rw [StructLayout.isAnnounceable, Bool.and_eq_true] at hannounced
  have hwritable := hannounced.2
  rw [hsize, Option.all_some] at hwritable
  exact hlong (isWritable_of_le hwritable (by omega) hle)

def runtimeFloats : Member := ⟨"b", .runtimeArray (.scalar .f32), []⟩

theorem hostShareable_runtimeFloats : runtimeFloats.type.HostShareable ∧
    Suit runtimeFloats.type.extent runtimeFloats.attributes :=
  ⟨⟨trivial, nofun⟩, suit_nil⟩

/-- With an array sized at run time behind it, only the table would tell the size of the array. -/
theorem layout_of_long_runtime (hcount : count ≠ 0)
    (hlong : ¬ Decimal.isWritable (count * 4) = true) :
    ∃ layout, (Struct.mk "A" [floatArray count, runtimeFloats]).layout = .ok layout ∧
      layout.table = .error .tooLongToWrite := by
  have harrangement : (Struct.mk "A" [floatArray count, runtimeFloats]).arrangement =
      ⟨"A", 4, none, [⟨"a", 0, 4, some (count * 4)⟩, ⟨"b", roundUp 4 (count * 4), 4, none⟩]⟩ := by
    simp [Struct.arrangement, arrange_floatArray, runtimeFloats, arrange, endOf?, strictestAlign,
      Node.extent, Scalar.bytes, TypeLayout.withAttributes, alignsOf, sizesOf]
  have hfirst := hostShareable_floatArray hcount
  have hlast := hostShareable_runtimeFloats
  have hshareable : (Struct.mk "A" [floatArray count, runtimeFloats]).HostShareable := by
    rw [Struct.hostShareable_iff, List.forall_mem_cons, List.forall_mem_singleton]
    refine ⟨List.cons_ne_nil _ _, ⟨hfirst, hlast⟩, List.forall_mem_singleton.2 ?_⟩
    rintro ⟨_, ⟨⟩⟩
  have htellable : (Struct.mk "A" [floatArray count, runtimeFloats]).Tellable := by
    have htypes : (floatArray count).type.Tellable ∧ runtimeFloats.type.Tellable :=
      ⟨⟨trivial, fun _ h => absurd hfirst.1.2 h⟩, trivial, fun _ h => absurd hlast.1.2 h⟩
    intro _
    refine ⟨⟨htypes.1, fun _ => ⟨trivial, fun _ => ?_⟩⟩, fun _ => ?_⟩
    · exact ⟨htypes.2, fun _ => ⟨trivial, fun _ => trivial⟩⟩
    · have hfour : Decimal.isWritable 4 = true := by decide +kernel
      rw [harrangement, StructLayout.isAnnounceable, hfour]
      rfl
  have hends := Struct.layout_ends ⟨"A", [floatArray count, runtimeFloats]⟩
  obtain ⟨layout, hlayout⟩ := hends.exists_ok_iff.2 ⟨hshareable, htellable⟩
  obtain rfl := hends.eq_of_ok hlayout
  refine ⟨_, hlayout, ?_⟩
  rw [StructLayout.table, if_neg]
  rw [harrangement]
  intro hwritable
  simp [StructLayout.isWritable, Placement.isWritable, hlong] at hwritable

end LongArrays

section Longest

open Grammar Lexeme

def longestCount : Nat := Decimal.writeBound - 1

theorem one_lt_writeBound : 1 < Decimal.writeBound := by
  have hwritable : Decimal.isWritable 1 = true := by decide +kernel
  have hlt := (isWritable_iff_lt (by decide)).1 hwritable
  omega

theorem short_longestCount : longestCount.repr.length ≤ Decimal.digitLimit := by
  have hbound := one_lt_writeBound
  apply Decimal.isWritable_natCast_iff.1
  rw [isWritable_iff_lt (Int.natCast_nonneg _), longestCount]
  omega

theorem long_longestCount :
    0 < (longestCount : Int) ∧ ¬ Decimal.isWritable (longestCount * 4) = true := by
  have hbound := one_lt_writeBound
  rw [isWritable_iff_lt (by omega), longestCount]
  omega

/-- The canonical text of what a derivation means declares just that. -/
theorem parseStructs_render_of_meaning {scope : Scope} {decl : Struct} (tree : StructTree)
    (hdecl : tree.meaning scope = some decl) (hnamed : Named tree.words) (filename : String) :
    parseStructs scope decl.render filename =
      .ok ([⟨scope.nextStamp, decl⟩], scope.declare decl) :=
  parseStructs_eq_ok_iff.2 (Declares.singleton_iff.2 ⟨rfl,
    ⟨tree.normal, (words_render_struct hdecl hnamed).symm, tree.meaning_normal.trans hdecl⟩, rfl⟩)

def longTree : MemberTree :=
  ⟨[], "a", .fixedArray (.scalar .f32) ⟨longestCount, .none, short_longestCount⟩⟩

theorem named_longTree : Named longTree.words := by
  have hname : IsName "a" := ⟨by decide, by decide⟩
  rw [named_member_iff]
  refine ⟨hname, named_array.2 ?_⟩
  simp [Named, TypeTree.words]

def longStruct : Struct := ⟨"A", [floatArray longestCount]⟩

theorem parseStructs_longStruct : parseStructs .empty longStruct.render "" =
    .ok ([⟨0, longStruct⟩], Scope.empty.declare longStruct) := by
  have hname : IsName "A" := ⟨by decide, by decide⟩
  exact parseStructs_render_of_meaning ⟨true, "A", .last longTree⟩ rfl
    (named_struct_iff.2 ⟨hname, named_longTree⟩) ""

def longRuntimeStruct : Struct := ⟨"A", [floatArray longestCount, runtimeFloats]⟩

theorem parseStructs_longRuntimeStruct : parseStructs .empty longRuntimeStruct.render "" =
    .ok ([⟨0, longRuntimeStruct⟩], Scope.empty.declare longRuntimeStruct) := by
  have hname : IsName "A" ∧ IsName "b" := ⟨⟨by decide, by decide⟩, by decide, by decide⟩
  have hlast : Named (BodyTree.last ⟨[], "b", .runtimeArray (.scalar .f32)⟩).words := by
    rw [BodyTree.words, named_member_iff]
    exact ⟨hname.2, named_template.2 (by simp [Named, TypeTree.words])⟩
  exact parseStructs_render_of_meaning
    ⟨true, "A", .more longTree (.last ⟨[], "b", .runtimeArray (.scalar .f32)⟩)⟩ rfl
    (named_struct_iff.2 ⟨hname.1, named_more_iff.2 ⟨named_longTree, hlast⟩⟩) ""

end Longest

/-! ### The judgement on a struct -/

/-- A struct gets a layout with a table, or a layout problem. -/
def Struct.IsJudged (decl : Struct) : Prop :=
  (∃ layout text, decl.layout = .ok layout ∧ layout.table = .ok text) ∨
    ∃ problem, decl.layout = .error (.layout problem)

/-- Judging tells what laying out tells and the table of the layout, if there is one. -/
theorem Struct.isJudged_iff {decl : Struct} :
    decl.IsJudged ↔
      decl.Tellable ∧ (decl.HostShareable → decl.arrangement.isWritable = true) := by
  have hends := decl.layout_ends
  constructor
  · rintro (⟨layout, text, hlayout, htable⟩ | ⟨problem, hproblem⟩)
    · obtain ⟨-, htellable⟩ := hends.exists_ok_iff.1 ⟨layout, hlayout⟩
      obtain rfl := hends.eq_of_ok hlayout
      exact ⟨htellable, fun _ => StructLayout.exists_table_iff.1 ⟨text, htable⟩⟩
    · obtain ⟨hshareable, htellable⟩ := hends.exists_problem_iff.1 ⟨problem, hproblem⟩
      exact ⟨htellable, fun h => absurd h hshareable⟩
  · rintro ⟨htellable, hwritable⟩
    by_cases hshareable : decl.HostShareable
    · obtain ⟨layout, hlayout⟩ := hends.exists_ok_iff.2 ⟨hshareable, htellable⟩
      obtain rfl := hends.eq_of_ok hlayout
      obtain ⟨text, htext⟩ := StructLayout.exists_table_iff.2 (hwritable hshareable)
      exact Or.inl ⟨_, text, hlayout, htext⟩
    · exact Or.inr (hends.exists_problem_iff.2 ⟨hshareable, htellable⟩)

/-- **The judgement on a struct.** Any struct gets a layout with a table or a layout problem, unless
an integer that has to be told is too long to be written, and none is if no integer of the struct is
that long. Nothing else goes wrong, and the table of a produced struct can do so only if the struct
is sized at run time. -/
theorem struct_isJudged_iff (decl : Struct) :
    (decl.IsJudged ↔
      decl.Tellable ∧ (decl.HostShareable → decl.arrangement.isWritable = true)) ∧
    (decl.IsShort → decl.IsJudged) ∧
    (∀ failure, decl.layout = .error failure →
      (∃ problem, failure = .layout problem) ∨ failure = .numeral .tooLongToWrite) ∧
    (∀ layout, decl.layout = .ok layout → ∀ e, layout.table = .error e →
      e = .tooLongToWrite ∧ (Produced decl → layout.size = none)) := by
  refine ⟨Struct.isJudged_iff, ?_, fun failure => decl.layout_ends.failure_cases, ?_⟩
  · intro hshort
    have harrangement := (Struct.isShort_iff.1 hshort).2.2
    exact Struct.isJudged_iff.2 ⟨decl.tellable_of_isShort hshort, harrangement⟩
  · intro layout hlayout e htable
    obtain ⟨hlong, rfl⟩ := StructLayout.eq_of_table_eq_error htable
    refine ⟨rfl, ?_⟩
    intro hproduced
    by_contra hsome
    obtain ⟨total, htotal⟩ := Option.ne_none_iff_exists'.1 hsome
    exact hlong (Struct.isWritable_of_sized hproduced.proper hlayout htotal)

theorem not_isJudged_of_longest :
    (parseStructs .empty longStruct.render "" =
        .ok ([⟨0, longStruct⟩], Scope.empty.declare longStruct) ∧
      longStruct.layout = .error (.numeral .tooLongToWrite) ∧ ¬ longStruct.IsJudged) ∧
    ∃ layout, parseStructs .empty longRuntimeStruct.render "" =
        .ok ([⟨0, longRuntimeStruct⟩], Scope.empty.declare longRuntimeStruct) ∧
      longRuntimeStruct.layout = .ok layout ∧ layout.table = .error .tooLongToWrite ∧
        ¬ longRuntimeStruct.IsJudged := by
  obtain ⟨hcount, hwritable⟩ := long_longestCount
  have hlong := layout_of_long hcount hwritable
  obtain ⟨layout, hlayout, htable⟩ := layout_of_long_runtime (Int.ne_of_gt hcount) hwritable
  refine ⟨⟨parseStructs_longStruct, hlong, ?_⟩,
    layout, parseStructs_longRuntimeStruct, hlayout, htable, ?_⟩
  · rintro (⟨_, _, hok, -⟩ | ⟨_, hproblem⟩)
    · cases hlong.symm.trans hok
    · cases hlong.symm.trans hproblem
  · rintro (⟨_, _, hok, htext⟩ | ⟨_, hproblem⟩)
    · obtain rfl := Except.ok.inj (hlayout.symm.trans hok)
      cases htable.symm.trans htext
    · cases hlayout.symm.trans hproblem

end ShaderStruct
