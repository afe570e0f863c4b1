/-!
# Lines

Two notions of a line. A scanner counts line feeds alone. A diagnostic shows the line of a text
that is split at every line separator, where carriage return and line feed together separate once;
the two agree on texts that use no separator but the line feed, alone or after a carriage return.
-/

namespace ShaderStruct.Text

/-- The separators of lines, apart from the pair of carriage return and line feed. -/
def isLineEnd (c : Char) : Bool :=
  c == '\n' || c == '\r' || c == '\x0b' || c == '\x0c' || c == '\x1c' || c == '\x1d' ||
    c == '\x1e' || c == '\u0085' || c == '\u2028' || c == '\u2029'

/-- The lines of a text of which `line` has been read, in reverse. -/
def linesFrom (line : List Char) : List Char → List (List Char)
  | [] => if line.isEmpty then [] else [line.reverse]
  | '\r' :: '\n' :: rest => line.reverse :: linesFrom [] rest
  | c :: rest =>
    if isLineEnd c then line.reverse :: linesFrom [] rest else linesFrom (c :: line) rest

/-- The lines of a text without their separators; a separator at the very end opens no line. -/
def lines (text : List Char) : List (List Char) := linesFrom [] text

/-- Every separator that holds a carriage return becomes a line feed, as in text read from a file.
-/
def unifyLineFeeds : List Char → List Char
  | [] => []
  | '\r' :: '\n' :: rest => '\n' :: unifyLineFeeds rest
  | c :: rest => (if c == '\r' then '\n' else c) :: unifyLineFeeds rest

def upToLineFeed (text : List Char) : List Char := text.takeWhile (· != '\n')

end ShaderStruct.Text
