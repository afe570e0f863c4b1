/-!
# Paths

The text of a path leaves out what does not change where it leads: dots that stand for a directory
itself, doubled separators and those at the end. Exactly two separators at the start are kept, more
are one.
-/

namespace ShaderStruct.Path

def pieces : List Char → List (List Char)
  | [] => [[]]
  | c :: rest =>
    if c == '/' then [] :: pieces rest
    else
      match pieces rest with
      | [] => [[c]]
      | piece :: more => (c :: piece) :: more

def names (path : String) : List String :=
  ((pieces path.toList).map String.ofList).filter fun name => name != "" && name != "."

def root (path : String) : String :=
  match (path.toList.takeWhile (· == '/')).length with
  | 0 => ""
  | 2 => "//"
  | _ => "/"

def join : String → List String → String
  | "", [] => "."
  | root, names => root ++ "/".intercalate names

def normal (path : String) : String := join (root path) (names path)

def parent (path : String) : String := join (root path) (names path).dropLast

end ShaderStruct.Path
