import Mathlib.Data.List.Induction
import Mathlib.Tactic.IntervalCases
import ShaderStruct.Proofs.Character
import ShaderStruct.Text.Decimal

/-!
# Numerals

The digits of a natural number are the digit runs without a leading zero: every such run is the
decimal form of a number. Reading the form of an integer gives the integer back as long as it is
short enough, with a sign in front of it and a type letter behind it or without.
-/

namespace ShaderStruct.Decimal

open Text

theorem digitChar_sub {c : Char} (h : isAsciiDigit c = true) :
    Nat.digitChar (c.toNat - 48) = c := by
  obtain ⟨hfirst, hlast⟩ := isAsciiDigit_iff.1 h
  rw [← Char.toNat_inj]
  generalize c.toNat = code at *
  interval_cases code <;> decide

theorem isAsciiDigit_of_mem_repr {value : Nat} {c : Char} (h : c ∈ value.repr.toList) :
    isAsciiDigit c = true := by
  rw [Nat.toList_repr] at h
  have := Nat.isDigit_of_mem_toDigits (by decide) (by decide) h
  simpa [Char.isDigit, isAsciiDigit, Char.le_def] using this

/-- Decimal forms have no zeros in front. -/
theorem head?_toDigits_ne_zero {value : Nat} (h : 0 < value) :
    (Nat.toDigits 10 value).head? ≠ some '0' := by
  induction value using Nat.strong_induction_on with
  | _ value ih =>
    by_cases hlt : value < 10
    · rw [Nat.toDigits_of_lt_base hlt]
      interval_cases value <;> decide
    · have hhigh := ih (value / 10) (by omega) (by omega)
      rw [Nat.toDigits_of_base_le (by decide) (by omega), List.head?_append]
      cases hhead : (Nat.toDigits 10 (value / 10)).head? with
      | none => exact absurd (List.head?_eq_none_iff.1 hhead) Nat.toDigits_ne_nil
      | some c =>
        rw [hhead] at hhigh
        exact hhigh

theorem eq_nil_of_repr_eq_zero_cons {value : Nat} {rest : List Char}
    (h : value.repr.toList = '0' :: rest) : rest = [] := by
  rw [Nat.toList_repr] at h
  rcases Nat.eq_zero_or_pos value with rfl | hpos
  · rw [Nat.toDigits_zero] at h
    exact (List.cons.inj h).2.symm
  · exact absurd (by rw [h]; rfl) (head?_toDigits_ne_zero hpos)

/-- A run of digits without a leading zero is the decimal form of a number. -/
theorem exists_repr_eq {c : Char} {digits : List Char}
    (hdigits : ∀ d ∈ c :: digits, isAsciiDigit d = true) (hzero : c = '0' → digits = []) :
    ∃ value : Nat, value.repr.toList = c :: digits := by
  induction digits using List.reverseRecOn with
  | nil =>
    have hc := hdigits c (List.mem_cons_self ..)
    refine ⟨c.toNat - 48, ?_⟩
    rw [Nat.toList_repr, Nat.toDigits_of_lt_base (by rw [isAsciiDigit_iff] at hc; omega),
      digitChar_sub hc]
  | append_singleton digits last ih =>
    have hc : c ≠ '0' := fun h => by simpa using hzero h
    obtain ⟨value, hvalue⟩ := ih
      (fun d hd => hdigits d (by rw [← List.cons_append]; exact List.mem_append_left _ hd))
      (fun h => absurd h hc)
    have hlast := hdigits last (by simp)
    rw [Nat.toList_repr] at hvalue
    have hpos : 0 < value := by
      rcases Nat.eq_zero_or_pos value with rfl | hpos
      · rw [Nat.toDigits_zero] at hvalue
        exact absurd (List.cons.inj hvalue).1.symm hc
      · exact hpos
    have hlt : last.toNat - 48 < 10 := by
      rw [isAsciiDigit_iff] at hlast
      omega
    refine ⟨10 * value + (last.toNat - 48), ?_⟩
    rw [Nat.toList_repr, ← Nat.toDigits_append_toDigits (by decide) hpos hlt, hvalue,
      Nat.toDigits_of_lt_base hlt, digitChar_sub hlast]
    rfl

/-! ### Reading a decimal form -/

theorem digits_natCast (value : Nat) : digits value = value.repr := by
  rw [digits, if_neg (by omega), Int.natAbs_natCast]

theorem digitValue?_of_isAsciiDigit {c : Char} (h : isAsciiDigit c = true) :
    digitValue? c = some (c.toNat - 48) := by
  rw [digitValue?, if_pos h]
  rfl

theorem isDigitOrUnderscore_of_isAsciiDigit {c : Char} (h : isAsciiDigit c = true) :
    isDigitOrUnderscore c = true := by
  simp [isDigitOrUnderscore, digitValue?_of_isAsciiDigit h]

theorem wellSpaced_of_isAsciiDigit {digits : List Char}
    (h : ∀ c ∈ digits, isAsciiDigit c = true) : wellSpaced true digits = true := by
  induction digits with
  | nil => rfl
  | cons c rest ih =>
    have hc : c ≠ '_' := by
      rintro rfl
      exact absurd (h _ (List.mem_cons_self ..)) (by decide)
    simp only [wellSpaced, beq_iff_eq, hc, if_false]
    exact ih fun d hd => h d (List.mem_cons_of_mem _ hd)

theorem filterMap_digitValue? {digits : List Char} (h : ∀ c ∈ digits, isAsciiDigit c = true) :
    digits.filterMap digitValue? = digits.map fun c => c.toNat - 48 := by
  induction digits with
  | nil => rfl
  | cons c rest ih =>
    rw [List.filterMap_cons_some (digitValue?_of_isAsciiDigit (h c (List.mem_cons_self ..))),
      ih fun d hd => h d (List.mem_cons_of_mem _ hd), List.map_cons]

theorem exists_repr_eq_cons (value : Nat) :
    ∃ c rest, value.repr.toList = c :: rest ∧ isAsciiDigit c = true := by
  obtain ⟨c, rest, hcons⟩ : ∃ c rest, value.repr.toList = c :: rest := by
    rw [Nat.toList_repr]
    exact List.exists_cons_of_ne_nil Nat.toDigits_ne_nil
  exact ⟨c, rest, hcons, isAsciiDigit_of_mem_repr (by rw [hcons]; exact List.mem_cons_self ..)⟩

theorem splitSign_repr (value : Nat) :
    splitSign (value.repr.toList.dropWhile isNumeralBlank) = (false, value.repr.toList) := by
  obtain ⟨c, rest, hcons, hc⟩ := exists_repr_eq_cons value
  have hblank : isNumeralBlank c = false := by
    rw [isNumeralBlank, isBlank_eq_false_of_isWord
      (isWord_of_isIdentifierPart (isIdentifierPart_of_isAsciiDigit hc))]
    rfl
  rw [hcons, List.dropWhile_cons_of_neg (by simp [hblank])]
  unfold splitSign
  split
  · rename_i heq
    obtain rfl := (List.cons.inj heq).1
    exact absurd hc (by decide)
  · rename_i heq
    obtain rfl := (List.cons.inj heq).1
    exact absurd hc (by decide)
  · rfl

/-- The digits behind the sign decide whether a text is read, and the sign is not counted. -/
theorem read_of_splitSign {text : String} {negative : Bool} {value : Nat}
    (h : splitSign (text.toList.dropWhile isNumeralBlank) = (negative, value.repr.toList)) :
    read text =
      if digitLimit < value.repr.length then .error (.tooLongToRead value.repr.length)
      else .ok (if negative then -value else value) := by
  have hdigits : ∀ c ∈ value.repr.toList, isAsciiDigit c = true :=
    fun c => isAsciiDigit_of_mem_repr
  have hvalue : ((value.repr.toList.map fun c => c.toNat - 48).foldl (10 * · + ·) 0) = value := by
    rw [List.foldl_map, Nat.toList_repr]
    exact Nat.ofDigitChars_ten_toDigits
  have hrun : value.repr.toList.takeWhile isDigitOrUnderscore = value.repr.toList :=
    List.takeWhile_eq_self_iff.2 fun c hc => isDigitOrUnderscore_of_isAsciiDigit (hdigits c hc)
  have hrest : value.repr.toList.dropWhile isDigitOrUnderscore = [] :=
    List.dropWhile_eq_nil_iff.2 fun c hc => isDigitOrUnderscore_of_isAsciiDigit (hdigits c hc)
  have hspaced : wellSpaced false value.repr.toList = true := by
    obtain ⟨c, rest, hcons, hc⟩ := exists_repr_eq_cons value
    have hunderscore : c ≠ '_' := by
      rintro rfl
      exact absurd hc (by decide)
    rw [hcons] at hdigits ⊢
    simp only [wellSpaced, beq_iff_eq, hunderscore, if_false]
    exact wellSpaced_of_isAsciiDigit fun d hd => hdigits d (List.mem_cons_of_mem _ hd)
  unfold read
  simp only [h, hrun, hrest, hspaced, filterMap_digitValue? hdigits, hvalue, List.length_map,
    String.length_toList, List.all_nil, Bool.not_true, Bool.false_eq_true, if_false]

/-- All digits of an integer are read back, the minus sign included, unless there are too many. -/
theorem read_digits (n : Int) :
    read (digits n) =
      if digitLimit < n.natAbs.repr.length then .error (.tooLongToRead n.natAbs.repr.length)
      else .ok n := by
  by_cases hnegative : n < 0
  · have hsign : splitSign ((digits n).toList.dropWhile isNumeralBlank) =
        (true, n.natAbs.repr.toList) := by
      rw [digits, if_pos hnegative, String.toList_append]
      rfl
    have hvalue : -(n.natAbs : Int) = n := by omega
    rw [read_of_splitSign hsign, if_pos rfl, hvalue]
  · have hsign : splitSign ((digits n).toList.dropWhile isNumeralBlank) =
        (false, n.natAbs.repr.toList) := by
      rw [digits, if_neg hnegative, splitSign_repr]
    have hvalue : (n.natAbs : Int) = n := by omega
    rw [read_of_splitSign hsign, if_neg Bool.false_ne_true, hvalue]

/-! ### Literals -/

inductive Suffix where
  | none
  | signed
  | unsigned
  deriving DecidableEq, Repr

def Suffix.letter : Suffix → List Char
  | none => []
  | signed => ['i']
  | unsigned => ['u']

/-- The literal of a number: its decimal form with a suffix. -/
def literal (value : Nat) (suffix : Suffix) : String :=
  String.ofList (value.repr.toList ++ suffix.letter)

@[simp] theorem toList_literal (value : Nat) (suffix : Suffix) :
    (literal value suffix).toList = value.repr.toList ++ suffix.letter := by
  rw [literal, String.toList_ofList]

theorem literal_eq_append (value : Nat) (suffix : Suffix) :
    literal value suffix = value.repr ++ String.ofList suffix.letter := by
  rw [← String.toList_inj, toList_literal, String.toList_append, String.toList_ofList]

/-- A type letter is cut off behind a digit, and a digit is none. -/
theorem withoutSuffix_append {number : String} (suffix : Suffix)
    (h : ∀ c ∈ number.toList.getLast?, isAsciiDigit c = true) :
    withoutSuffix (number ++ String.ofList suffix.letter) = number := by
  unfold withoutSuffix
  cases suffix with
  | none =>
    simp only [Suffix.letter, String.ofList_nil, String.append_empty]
    split
    · rename_i hlast
      exact absurd (h _ hlast) (by decide)
    · rename_i hlast
      exact absurd (h _ hlast) (by decide)
    · rfl
  | signed => simp [Suffix.letter]
  | unsigned => simp [Suffix.letter]

theorem withoutSuffix_literal (value : Nat) (suffix : Suffix) :
    withoutSuffix (literal value suffix) = value.repr := by
  rw [literal_eq_append]
  exact withoutSuffix_append suffix fun c hc => isAsciiDigit_of_mem_repr (List.mem_of_getLast? hc)

/-- A number ends with a digit, so a letter behind it is its suffix. -/
theorem isAsciiDigit_of_getLast?_digits {n : Int} {c : Char}
    (h : c ∈ (digits n).toList.getLast?) : isAsciiDigit c = true := by
  obtain ⟨sign, hsign⟩ : ∃ sign, (digits n).toList = sign ++ n.natAbs.repr.toList := by
    unfold digits
    split
    · exact ⟨['-'], String.toList_append⟩
    · exact ⟨[], rfl⟩
  rw [hsign, List.getLast?_append] at h
  cases hlast : n.natAbs.repr.toList.getLast? with
  | none =>
    obtain ⟨first, rest, hcons, -⟩ := exists_repr_eq_cons n.natAbs
    rw [List.getLast?_eq_none_iff.1 hlast] at hcons
    cases hcons
  | some last =>
    rw [hlast, Option.some_or] at h
    obtain rfl := Option.mem_some_iff.1 h
    exact isAsciiDigit_of_mem_repr (List.mem_of_getLast? hlast)

theorem readLiteral_digits (n : Int) (suffix : Suffix) :
    readLiteral (digits n ++ String.ofList suffix.letter) =
      if digitLimit < n.natAbs.repr.length then .error (.tooLongToRead n.natAbs.repr.length)
      else .ok n := by
  rw [readLiteral, withoutSuffix_append suffix fun c => isAsciiDigit_of_getLast?_digits,
    read_digits]

theorem readLiteral_literal (value : Nat) (suffix : Suffix) :
    readLiteral (literal value suffix) =
      if digitLimit < value.repr.length then .error (.tooLongToRead value.repr.length)
      else .ok value := by
  have hread := readLiteral_digits value suffix
  rwa [digits_natCast, Int.natAbs_natCast, ← literal_eq_append] at hread

theorem eq_of_repr_eq {value value' : Nat} (h : value.repr = value'.repr) : value = value' := by
  have hdigits := congrArg String.toList h
  rw [Nat.toList_repr, Nat.toList_repr] at hdigits
  rw [← Nat.ofDigitChars_ten_toDigits (n := value), hdigits, Nat.ofDigitChars_ten_toDigits]

theorem literal_inj {value value' : Nat} {suffix suffix' : Suffix} :
    literal value suffix = literal value' suffix' ↔ value = value' ∧ suffix = suffix' := by
  refine ⟨fun h => ?_, fun h => by rw [h.1, h.2]⟩
  have hrepr : value.repr = value'.repr := by
    rw [← withoutSuffix_literal value suffix, h, withoutSuffix_literal]
  obtain rfl := eq_of_repr_eq hrepr
  have hletter := congrArg String.toList h
  rw [toList_literal, toList_literal, List.append_cancel_left_eq] at hletter
  cases suffix <;> cases suffix' <;> simp_all [Suffix.letter]

/-! ### Writing -/

theorem isWritable_iff {n : Int} :
    isWritable n = true ↔ n.natAbs.repr.length ≤ digitLimit := by
  have hlength := Nat.length_repr_le_iff (n := n.natAbs) (k := digitLimit) (by decide)
  unfold isWritable writeBound
  -- the limit is a number, and its power is better left alone
  generalize digitLimit = limit at hlength ⊢
  rw [decide_eq_true_eq, hlength]
  rfl

theorem isWritable_natCast_iff {value : Nat} :
    isWritable value = true ↔ value.repr.length ≤ digitLimit := by
  rw [isWritable_iff, Int.natAbs_natCast]

end ShaderStruct.Decimal
