import Mathlib.Logic.Function.Basic
import ShaderStruct.TypeName

/-!
# Spellings of types

Every name of a type is spelled in one way: a scalar by its own name, and a shape by its kind, the
extents and perhaps a letter. What the parser reads from a keyword is exactly what the keyword was
spelled from, and the letters it allows are those of the grammar.
-/

namespace ShaderStruct

namespace Grammar

inductive Extent where
  | two
  | three
  | four
  deriving DecidableEq, Repr

namespace Extent

def toNat : Extent → Nat
  | two => 2
  | three => 3
  | four => 4

def digit : Extent → Char
  | two => '2'
  | three => '3'
  | four => '4'

theorem extent?_eq_some_iff {c : Char} {n : Nat} :
    Shape.extent? c = some n ↔ ∃ extent : Extent, extent.digit = c ∧ extent.toNat = n := by
  constructor
  · intro h
    unfold Shape.extent? at h
    split at h
    · exact ⟨two, rfl, Option.some.inj h⟩
    · exact ⟨three, rfl, Option.some.inj h⟩
    · exact ⟨four, rfl, Option.some.inj h⟩
    · cases h
  · rintro ⟨extent, rfl, rfl⟩
    cases extent <;> rfl

end Extent

inductive ShapeName where
  | vector (size : Extent)
  | matrix (columns rows : Extent)
  deriving DecidableEq, Repr

namespace ShapeName

def shape : ShapeName → Shape
  | vector size => .vector size.toNat
  | matrix columns rows => .matrix columns.toNat rows.toNat

def spelling : ShapeName → List Char
  | vector size => ['v', 'e', 'c', size.digit]
  | matrix columns rows => ['m', 'a', 't', columns.digit, 'x', rows.digit]

def keyword (name : ShapeName) (letter : Option Char) : String :=
  String.ofList (name.spelling ++ letter.toList)

def letters : ShapeName → List (Char × Scalar)
  | vector _ => [('h', .f16), ('f', .f32), ('i', .i32), ('u', .u32)]
  | matrix _ _ => [('h', .f16), ('f', .f32)]

theorem shape_injective : Function.Injective shape := by
  intro a b h
  cases a <;> cases b <;> simp only [shape, reduceCtorEq, Shape.vector.injEq,
    Shape.matrix.injEq] at h
  · rename_i m n
    cases m <;> cases n <;> first | rfl | cases h
  · rename_i c r d s
    cases c <;> cases r <;> cases d <;> cases s <;> first | rfl | simp [Extent.toNat] at h

theorem letter_mem_letters {name : ShapeName} {letter : Char} {kind : Scalar}
    (h : (letter, kind) ∈ name.letters) : 'a' ≤ letter ∧ letter ≤ 'z' := by
  cases name <;> simp only [letters, List.mem_cons, Prod.mk.injEq, List.not_mem_nil, or_false] at h
  · rcases h with ⟨rfl, -⟩ | ⟨rfl, -⟩ | ⟨rfl, -⟩ | ⟨rfl, -⟩ <;> decide
  · rcases h with ⟨rfl, -⟩ | ⟨rfl, -⟩ <;> decide

/-- The parser's table of letters is the grammar's. -/
theorem scalar?_eq_some_iff {name : ShapeName} {letter : Char} {kind : Scalar} :
    name.shape.scalar? letter = some kind ↔ (letter, kind) ∈ name.letters := by
  constructor
  · intro h
    unfold Shape.scalar? at h
    split at h
    · rename_i hmem
      rw [List.contains_iff_mem] at hmem
      cases name <;> simp only [shape, Shape.letters, List.mem_cons, List.not_mem_nil,
        or_false] at hmem
      · rcases hmem with rfl | rfl | rfl | rfl <;> cases h <;> simp [letters]
      · rcases hmem with rfl | rfl <;> cases h <;> simp [letters]
    · cases h
  · intro h
    cases name <;> simp only [letters, List.mem_cons, Prod.mk.injEq, List.not_mem_nil,
      or_false] at h
    · rcases h with ⟨rfl, rfl⟩ | ⟨rfl, rfl⟩ | ⟨rfl, rfl⟩ | ⟨rfl, rfl⟩ <;> rfl
    · rcases h with ⟨rfl, rfl⟩ | ⟨rfl, rfl⟩ <;> rfl

/-- A shape ends with its name or with one small letter, whether or not it takes that letter. -/
theorem ending?_eq_some_iff {rest : List Char} {letter : Option Char} :
    Shape.ending? rest = some letter ↔
      rest = letter.toList ∧ ∀ c ∈ letter, 'a' ≤ c ∧ c ≤ 'z' := by
  constructor
  · intro h
    unfold Shape.ending? at h
    split at h
    · cases h
      simp
    · split at h
      · rename_i hlower
        cases h
        simpa using hlower
      · cases h
    · cases h
  · rintro ⟨rfl, hlower⟩
    cases letter with
    | none => rfl
    | some c => simpa [Shape.ending?] using hlower

/-- A text is read as a shape exactly if it is the keyword of one, whatever small letter follows. -/
theorem ofName?_eq_some_iff {text : List Char} {shape : Shape} {letter : Option Char} :
    Shape.ofName? text = some (shape, letter) ↔
      ∃ name : ShapeName, name.shape = shape ∧ text = name.spelling ++ letter.toList ∧
        ∀ c ∈ letter, 'a' ≤ c ∧ c ≤ 'z' := by
  constructor
  · intro h
    unfold Shape.ofName? at h
    split at h
    · simp only [Option.bind_eq_bind, Option.bind_eq_some_iff, Option.some.injEq,
        Prod.mk.injEq] at h
      obtain ⟨n, hn, letter', hletter, rfl, rfl⟩ := h
      obtain ⟨size, rfl, rfl⟩ := Extent.extent?_eq_some_iff.1 hn
      obtain ⟨rfl, hlower⟩ := ending?_eq_some_iff.1 hletter
      exact ⟨.vector size, rfl, rfl, hlower⟩
    · simp only [Option.bind_eq_bind, Option.bind_eq_some_iff, Option.some.injEq,
        Prod.mk.injEq] at h
      obtain ⟨c, hc, r, hr, letter', hletter, rfl, rfl⟩ := h
      obtain ⟨columns, rfl, rfl⟩ := Extent.extent?_eq_some_iff.1 hc
      obtain ⟨rows, rfl, rfl⟩ := Extent.extent?_eq_some_iff.1 hr
      obtain ⟨rfl, hlower⟩ := ending?_eq_some_iff.1 hletter
      exact ⟨.matrix columns rows, rfl, rfl, hlower⟩
    · cases h
  · rintro ⟨name, rfl, rfl, hlower⟩
    have hending := ending?_eq_some_iff.2 ⟨rfl, hlower⟩
    cases name with
    | vector size =>
      have hsize := Extent.extent?_eq_some_iff.2 ⟨size, rfl, rfl⟩
      simp [Shape.ofName?, spelling, shape, hsize, hending]
    | matrix columns rows =>
      have hcolumns := Extent.extent?_eq_some_iff.2 ⟨columns, rfl, rfl⟩
      have hrows := Extent.extent?_eq_some_iff.2 ⟨rows, rfl, rfl⟩
      simp [Shape.ofName?, spelling, shape, hcolumns, hrows, hending]

end ShapeName

end Grammar

theorem Scalar.ofName?_eq_some_iff {text : String} {kind : Scalar} :
    Scalar.ofName? text = some kind ↔ text = kind.name := by
  constructor
  · intro h
    unfold Scalar.ofName? at h
    have hfound := List.find?_some h
    exact (beq_iff_eq.1 hfound).symm
  · rintro rfl
    cases kind <;> decide

/-! ### What a keyword names -/

namespace TypeName

open Grammar

@[simp] theorem ofText?_scalar (kind : Scalar) : ofText? kind.name = some (.scalar kind) := by
  cases kind <;> decide

theorem ofText?_keyword {name : ShapeName} {letter : Option Char}
    (h : ∀ c ∈ letter, 'a' ≤ c ∧ c ≤ 'z') :
    ofText? (name.keyword letter) = some (.shaped name.shape letter) := by
  have harray : name.keyword letter ≠ "array" := by
    intro heq
    have := congrArg String.toList heq
    rw [ShapeName.keyword, String.toList_ofList] at this
    cases name <;> simp [ShapeName.spelling] at this
  have hscalar : Scalar.ofName? (name.keyword letter) = none := by
    rw [Option.eq_none_iff_forall_ne_some]
    intro kind hkind
    have := congrArg String.toList (Scalar.ofName?_eq_some_iff.1 hkind)
    rw [ShapeName.keyword, String.toList_ofList] at this
    cases name <;> cases kind <;> simp [ShapeName.spelling, Scalar.name] at this
  have hname : Shape.ofName? (name.keyword letter).toList = some (name.shape, letter) := by
    rw [ShapeName.keyword, String.toList_ofList]
    exact ShapeName.ofName?_eq_some_iff.2 ⟨name, rfl, rfl, h⟩
  simp [ofText?, harray, hscalar, hname]

@[simp] theorem ofText?_templated (name : ShapeName) :
    ofText? (name.keyword none) = some (.shaped name.shape none) :=
  ofText?_keyword (by simp)

theorem ofText?_short {name : ShapeName} {letter : Char} {kind : Scalar}
    (h : (letter, kind) ∈ name.letters) :
    ofText? (name.keyword (some letter)) = some (.shaped name.shape (some letter)) :=
  ofText?_keyword (by simpa using ShapeName.letter_mem_letters h)

/-- The names of types are spelled in one way each. -/
theorem ofText?_eq_some_iff {text : String} {name : TypeName} :
    ofText? text = some name ↔
      match name with
      | .array => text = "array"
      | .scalar kind => text = kind.name
      | .shaped shape letter =>
        ∃ name : ShapeName, name.shape = shape ∧ text = name.keyword letter ∧
          ∀ c ∈ letter, 'a' ≤ c ∧ c ≤ 'z' := by
  constructor
  · intro h
    unfold ofText? at h
    split at h
    · cases h
      assumption
    · split at h
      · rename_i hkind
        cases h
        exact Scalar.ofName?_eq_some_iff.1 hkind
      · obtain ⟨⟨shape, letter⟩, hname, rfl⟩ := Option.map_eq_some_iff.1 h
        obtain ⟨name, rfl, htext, hlower⟩ := ShapeName.ofName?_eq_some_iff.1 hname
        refine ⟨name, rfl, ?_, hlower⟩
        rw [ShapeName.keyword, ← htext, String.ofList_toList]
  · cases name with
    | array => rintro rfl; rfl
    | scalar kind => rintro rfl; exact ofText?_scalar kind
    | shaped shape letter =>
      rintro ⟨name, rfl, rfl, hlower⟩
      exact ofText?_keyword hlower

end TypeName

end ShaderStruct
