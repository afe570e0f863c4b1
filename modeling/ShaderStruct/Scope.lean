import ShaderStruct.Tree

/-!
# Scopes

A scope holds the declarations that members may refer to, in the order in which they became known.
A later one hides an earlier one of its name. The stamp of the next declaration is above all those
in the scope, so a new declaration is told from every known one.
-/

namespace ShaderStruct

structure Scope where
  known : List Declared
  nextStamp : Nat
  stamp_lt : ∀ d ∈ known, d.stamp < nextStamp

namespace Scope

def empty : Scope where
  known := []
  nextStamp := 0
  stamp_lt := by simp

/-- The last known declaration of a name. -/
def find? (s : Scope) (name : String) : Option Declared :=
  s.known.reverse.find? (·.name == name)

def names (s : Scope) : List String := (s.known.map (·.name)).eraseDups

/-- The declarations that are not hidden, in the order of their names. -/
def visible (s : Scope) : List Declared := s.names.filterMap s.find?

def declare (s : Scope) (decl : Struct) : Scope where
  known := s.known ++ [⟨s.nextStamp, decl⟩]
  nextStamp := s.nextStamp + 1
  stamp_lt := by
    intro d hd
    rcases List.mem_append.1 hd with hd | hd
    · exact Nat.lt_succ_of_lt (s.stamp_lt d hd)
    · rw [List.mem_singleton.1 hd]
      exact Nat.lt_succ_self _

def indexOf? (s : Scope) (d : Declared) : Option Nat :=
  s.known.findIdx? (·.stamp == d.stamp)

end Scope

end ShaderStruct
