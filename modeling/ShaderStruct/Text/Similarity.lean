/-!
# Names that look alike

Which of the known names an unknown one may stand for. Two texts are compared by the characters
they share in order: their longest common block, then what is shared before it and after it, and so
on. The share of these characters in both texts decides, and all of it is exact arithmetic.
-/

namespace ShaderStruct.Similarity

/-- A common piece of two texts: where it starts in each, and its length. -/
structure Block where
  left : Nat
  right : Nat
  size : Nat

def commonStart : List Char → List Char → Nat
  | x :: xs, y :: ys => if x == y then commonStart xs ys + 1 else 0
  | _, _ => 0

/-- For each place in a text, the length of the block that starts there and at a character of
another text, given the lengths for what follows that character, each from one place further on. -/
def blockSizes (usable : Bool) (x : Char) : List Char → List Nat → List Nat
  | [], _ => []
  | y :: ys, following =>
    (if usable && x == y then following.headD 0 + 1 else 0) :: blockSizes usable x ys following.tail

/-- The largest of some sizes and the first place where it is. -/
def largest : List Nat → Nat × Nat
  | [] => (0, 0)
  | size :: rest =>
    let (place, best) := largest rest
    if best ≤ size then (0, size) else (place + 1, best)

/-- The longest block of usable characters, the leftmost in the first text and then in the second
if there are several, with the sizes of the blocks that start where the first text starts. -/
def longestCore (usable : Char → Bool) (ys : List Char) : List Char → Block × List Nat
  | [] => (⟨0, 0, 0⟩, [])
  | x :: xs =>
    let (later, following) := longestCore usable ys xs
    let sizes := blockSizes (usable x) x ys following.tail
    let (right, size) := largest sizes
    if later.size ≤ size then (⟨0, right, size⟩, sizes)
    else (⟨later.left + 1, later.right, later.size⟩, sizes)

/-- The longest block of usable characters, extended on both sides by whatever is equal there. -/
def longestBlock (usable : Char → Bool) (xs ys : List Char) : Block :=
  let core := (longestCore usable ys xs).1
  let before := commonStart (xs.take core.left).reverse (ys.take core.right).reverse
  let after := commonStart (xs.drop (core.left + core.size)) (ys.drop (core.right + core.size))
  ⟨core.left - before, core.right - before, before + core.size + after⟩

def shared (usable : Char → Bool) (xs ys : List Char) : Nat :=
  match longestBlock usable xs ys with
  | ⟨left, right, size⟩ =>
    if 0 < size ∧ left < xs.length then
      shared usable (xs.take left) (ys.take right) + size +
        shared usable (xs.drop (left + size)) (ys.drop (right + size))
    else 0
termination_by xs.length
decreasing_by all_goals simp only [List.length_take, List.length_drop]; omega

/-- The characters that start no block: in a text of two hundred characters or more, those that
make up more than a hundredth of it. -/
def popular (text : List Char) : List Char :=
  if text.length < 200 then []
  else text.eraseDups.filter fun c => text.length / 100 + 1 < text.count c

structure Candidate where
  name : String
  shared : Nat
  total : Nat

def Candidate.of (unknown name : String) : Candidate :=
  let target := unknown.toList
  let avoided := popular target
  { name
    shared := Similarity.shared (!avoided.contains ·) name.toList target
    total := name.length + unknown.length }

/-- At least three fifths of the characters of both names are shared. -/
def Candidate.isClose (c : Candidate) : Bool := 3 * c.total ≤ 10 * c.shared

/-- A larger share comes first, and of equal shares the later name. -/
def Candidate.precedes (c d : Candidate) : Bool :=
  d.shared * c.total < c.shared * d.total ||
    (d.shared * c.total == c.shared * d.total && d.name ≤ c.name)

def suggestionLimit : Nat := 3

def closeNames (unknown : String) (known : List String) : List String :=
  let close := (known.map (Candidate.of unknown)).filter Candidate.isClose
  ((close.mergeSort Candidate.precedes).take suggestionLimit).map Candidate.name

end ShaderStruct.Similarity
