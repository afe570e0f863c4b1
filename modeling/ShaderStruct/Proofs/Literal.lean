import ShaderStruct.Proofs.Words
import ShaderStruct.Tree.Canonical

/-!
# Literals

An integer survives being written and read: the text of a literal is read as its value again, with
any type letter behind it. The other way round, an integer token is digits and at most one type
letter, and what it is read as is written with just these digits. The two limits meet: reading
counts the digits of a text, writing those of a value, and neither counts the sign.
-/

namespace ShaderStruct

open Decimal (Suffix digitLimit digits literal readLiteral)
open Text (isAsciiDigit)

theorem Node.text_literal (n : Int) :
    (Node.literal n).text =
      if n.natAbs.repr.length ≤ digitLimit then .ok (digits n) else .error .tooLongToWrite := by
  rw [Node.text, Node.isWritable, Node.render]
  exact if_congr Decimal.isWritable_iff rfl rfl

/-- A literal with few enough digits is read as what is written with them, and only too many of them
keep it from being read. -/
theorem readLiteral_literal_cases (value : Nat) (suffix : Suffix) :
    (value.repr.length ≤ digitLimit →
      readLiteral (literal value suffix) = .ok value ∧
        (Node.literal value).text = .ok value.repr) ∧
    (digitLimit < value.repr.length ↔
      readLiteral (literal value suffix) = .error (.tooLongToRead value.repr.length)) := by
  rw [Decimal.readLiteral_literal]
  constructor
  · intro hshort
    rw [if_neg (Nat.not_lt.2 hshort), Node.text_literal, Int.natAbs_natCast, if_pos hshort,
      Decimal.digits_natCast]
    exact ⟨rfl, rfl⟩
  · by_cases hlong : digitLimit < value.repr.length
    · rw [if_pos hlong]
      exact iff_of_true hlong rfl
    · rw [if_neg hlong]
      exact iff_of_false hlong nofun

/-- An integer token of a source is the literal of a number. -/
theorem exists_literal_of_mem_tokens {source filename : String} {tokens : List Token} {t : Token}
    (htokens : tokenize source filename = .ok tokens) (ht : t ∈ tokens)
    (hkind : t.kind = .decimalInt) : ∃ value suffix, t.text = literal value suffix := by
  obtain ⟨_, htokens', hwords⟩ := exists_tokenize source filename
  obtain rfl := Except.ok.inj (htokens.symm.trans htokens')
  have hmem : t.word ∈ words source.toList := hwords ▸ List.mem_map_of_mem ht
  rw [Token.word, hkind] at hmem
  exact exists_literal_of_mem_words hmem

/-- **Literals survive writing and reading.** An integer that is short enough to be written is read
back from its text with any type letter behind it. An integer token of a source is digits and at
most one type letter; it is read as the number that is written with these digits, unless there are
too many of them, and then it is not read. -/
theorem literals_survive :
    (∀ (n : Int) (suffix : Suffix), n.natAbs.repr.length ≤ digitLimit →
      ∃ text, (Node.literal n).text = .ok text ∧
        readLiteral (text ++ String.ofList suffix.letter) = .ok n) ∧
    ∀ (source filename : String) (tokens : List Token), tokenize source filename = .ok tokens →
      ∀ t ∈ tokens, t.kind = .decimalInt →
        ∃ (number : String) (suffix : Suffix), t.text = number ++ String.ofList suffix.letter ∧
          (∀ c ∈ number.toList, isAsciiDigit c = true) ∧
          (number.length ≤ digitLimit →
            ∃ value : Int, 0 ≤ value ∧ readLiteral t.text = .ok value ∧
              (Node.literal value).text = .ok number) ∧
          (digitLimit < number.length ↔
            readLiteral t.text = .error (.tooLongToRead number.length)) := by
  constructor
  · intro n suffix hshort
    refine ⟨digits n, ?_, ?_⟩
    · rw [Node.text_literal, if_pos hshort]
    · rw [Decimal.readLiteral_digits, if_neg (Nat.not_lt.2 hshort)]
  · intro source filename tokens htokens t ht hkind
    obtain ⟨value, suffix, htext⟩ := exists_literal_of_mem_tokens htokens ht hkind
    obtain ⟨hshort, hlong⟩ := readLiteral_literal_cases value suffix
    rw [htext]
    refine ⟨value.repr, suffix, Decimal.literal_eq_append value suffix,
      fun c => Decimal.isAsciiDigit_of_mem_repr, ?_, hlong⟩
    intro hlength
    exact ⟨value, Int.natCast_nonneg _, hshort hlength⟩

/-- A negative integer, and the second of two tokens without a gap: no integer but zero begins with
a zero. -/
theorem literals_survive_of_second_token :
    ((-12 : Int).natAbs.repr.length ≤ digitLimit ∧
      ∃ text, (Node.literal (-12)).text = .ok text ∧
        readLiteral (text ++ String.ofList Suffix.unsigned.letter) = .ok (-12)) ∧
    ∃ tokens t, tokenize "07u" "" = .ok tokens ∧ t ∈ tokens ∧ t.word = (.decimalInt, "7u") ∧
      ∃ (number : String) (suffix : Suffix) (value : Int),
        t.text = number ++ String.ofList suffix.letter ∧
        (∀ c ∈ number.toList, isAsciiDigit c = true) ∧ number.length ≤ digitLimit ∧
        0 ≤ value ∧ readLiteral t.text = .ok value ∧ (Node.literal value).text = .ok number := by
  have hshort : (-12 : Int).natAbs.repr.length ≤ digitLimit := by decide +kernel
  obtain ⟨tokens, htokens, hmap⟩ := exists_tokenize "07u" ""
  have hwords : words "07u".toList = [(.decimalInt, "0"), (.decimalInt, "7u")] :=
    words_eq_of_wordsWithin 5 (by decide +kernel)
  rw [hwords] at hmap
  simp only [List.map_eq_cons_iff, List.map_eq_nil_iff] at hmap
  obtain ⟨zero, _, rfl, -, seven, _, rfl, hseven, rfl⟩ := hmap
  have hmem : seven ∈ [zero, seven] := by simp
  obtain ⟨hkind, htext⟩ := Prod.mk.inj hseven
  obtain ⟨number, suffix, hnumber, hdigits, hread, -⟩ :=
    literals_survive.2 _ _ _ htokens seven hmem hkind
  have hlength : number.length ≤ digitLimit := by
    have htotal := congrArg String.length hnumber
    rw [htext, String.length_append] at htotal
    have hfew : "7u".length ≤ digitLimit := by decide
    omega
  obtain ⟨value, hvalue⟩ := hread hlength
  exact ⟨⟨hshort, literals_survive.1 (-12) .unsigned hshort⟩, _, seven, htokens, hmem, hseven,
    number, suffix, value, hnumber, hdigits, hlength, hvalue⟩

end ShaderStruct
