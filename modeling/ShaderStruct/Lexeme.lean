import ShaderStruct.Text.Character
import ShaderStruct.Token

/-!
# Lexemes

The longest piece of text that is a token, at the start of a text. Each kind of token has a
recogniser that gives the piece or none, and the first kind in order that has one wins. A word is a
keyword only as a whole: the run of word characters of any script has to be the keyword's spelling.
-/

namespace ShaderStruct.Lexeme

open Text (isAsciiDigit isAsciiLetter isBlank isWord)

def comment? : List Char → Option (List Char)
  | '/' :: '/' :: rest => some ('/' :: '/' :: rest.takeWhile fun c => c != '\r' && c != '\n')
  | _ => none

def sizes : List String := ["2", "3", "4"]

def vectorNames : List String :=
  sizes.flatMap fun size =>
    ["", "i", "u", "f", "h"].map fun letter => "vec" ++ size ++ letter

def matrixNames : List String :=
  sizes.flatMap fun columns => sizes.flatMap fun rows =>
    ["", "f", "h"].map fun letter => "mat" ++ columns ++ "x" ++ rows ++ letter

def keywords : List String :=
  ["struct", "size", "align", "array", "bool", "i32", "u32", "f32", "f16"] ++
    vectorNames ++ matrixNames

def keyword? (text : List Char) : Option (List Char) :=
  let run := text.takeWhile isWord
  if keywords.contains (String.ofList run) then some run else none

def typeLetter : List Char → List Char
  | 'i' :: _ => ['i']
  | 'u' :: _ => ['u']
  | _ => []

/-- Zero stands alone: no other integer starts with it. -/
def decimalInt? : List Char → Option (List Char)
  | [] => none
  | c :: rest =>
    if c == '0' then some (c :: typeLetter rest)
    else if isAsciiDigit c then
      some (c :: rest.takeWhile isAsciiDigit ++ typeLetter (rest.dropWhile isAsciiDigit))
    else none

def isIdentifierStart (c : Char) : Bool := isAsciiLetter c || c == '_'

def isIdentifierPart (c : Char) : Bool := isIdentifierStart c || isAsciiDigit c

def identifier? : List Char → Option (List Char)
  | [] => none
  | c :: rest =>
    if isIdentifierStart c then some (c :: rest.takeWhile isIdentifierPart) else none

def punctuators : List Char := [':', ',', '{', '}', '@', '(', ')', '<', '>']

def punctuator? : List Char → Option (List Char)
  | [] => none
  | c :: _ => if punctuators.contains c then some [c] else none

def unknown? : List Char → Option (List Char)
  | [] => none
  | c :: _ => if isBlank c then none else some [c]

def recognisers : List (TokenKind × (List Char → Option (List Char))) :=
  [(.comment, comment?), (.keyword, keyword?), (.decimalInt, decimalInt?),
    (.identifier, identifier?), (.punctuator, punctuator?), (.unknown, unknown?)]

def first? (text : List Char) : Option (TokenKind × List Char) :=
  recognisers.findSome? fun (kind, recognise) => (recognise text).map (kind, ·)

/-! ### A lexeme is a piece of the text -/

theorem empty_notMem_keywords : "" ∉ keywords := by decide

theorem keyword?_ne_nil {text lexeme : List Char} (h : keyword? text = some lexeme) :
    lexeme ≠ [] := by
  simp only [keyword?, Option.ite_none_right_eq_some, Option.some.injEq] at h
  obtain ⟨hmem, rfl⟩ := h
  intro hnil
  rw [hnil] at hmem
  exact absurd (List.contains_iff_mem.1 hmem) empty_notMem_keywords

/-- What a recogniser finds is never empty, so a scan always moves on. -/
theorem first?_ne_nil {text lexeme : List Char} {kind : TokenKind}
    (h : first? text = some (kind, lexeme)) : lexeme ≠ [] := by
  obtain ⟨⟨k, recognise⟩, hmem, h⟩ := List.exists_of_findSome?_eq_some h
  obtain ⟨found, hfound, heq⟩ := Option.map_eq_some_iff.1 h
  obtain ⟨rfl, rfl⟩ := Prod.mk.injEq .. ▸ heq
  simp only [recognisers, List.mem_cons, Prod.mk.injEq, List.not_mem_nil, or_false] at hmem
  rcases hmem with ⟨-, rfl⟩ | ⟨-, rfl⟩ | ⟨-, rfl⟩ | ⟨-, rfl⟩ | ⟨-, rfl⟩ | ⟨-, rfl⟩
  · unfold comment? at hfound; split at hfound <;> simp_all
    simp [← hfound]
  · exact keyword?_ne_nil hfound
  · unfold decimalInt? at hfound; split at hfound <;> grind
  · unfold identifier? at hfound; split at hfound <;> grind
  · unfold punctuator? at hfound; split at hfound <;> grind
  · unfold unknown? at hfound; split at hfound <;> grind

theorem first?_nil : first? [] = none := by decide

end ShaderStruct.Lexeme
