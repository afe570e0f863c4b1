import ShaderStruct.Failure
import ShaderStruct.Lexeme
import ShaderStruct.Text.Lines

/-!
# The scanner

A scanner is a cursor on a source text. It keeps the line it is on and where that line starts,
counting line feeds as it moves, so a token's place is known without looking back. A token stream
yields the tokens of a scanner one by one; several streams may share a scanner, one after the
other, and the cursor may be moved between two tokens.
-/

namespace ShaderStruct

structure Scanner where
  source : List Char
  filename : String
  /-- The number of characters passed; it may exceed the length of the source. -/
  position : Nat
  line : Nat
  lineStart : Nat
  /-- The source from the position on. -/
  rest : List Char
  rest_eq : rest = source.drop position

namespace Scanner

def ofSource (source filename : String) : Scanner where
  source := source.toList
  filename := filename
  position := 0
  line := 1
  lineStart := 0
  rest := source.toList
  rest_eq := rfl

def atEnd (s : Scanner) : Bool := s.rest.isEmpty

def throughLastLineFeed (text : List Char) : Nat :=
  text.length - (text.reverse.takeWhile (· != '\n')).length

/-- Moves forward by a number of characters, past the end if it is large. -/
def advance (s : Scanner) (count : Nat) : Scanner :=
  let passed := s.rest.take count
  { s with
    position := s.position + count
    line := s.line + passed.count '\n'
    lineStart :=
      if passed.contains '\n' then s.position + throughLastLineFeed passed else s.lineStart
    rest := s.rest.drop count
    rest_eq := by rw [s.rest_eq, List.drop_drop] }

def skipBlanks (s : Scanner) : Scanner := s.advance (s.rest.takeWhile Text.isBlank).length

def column (s : Scanner) : Int := (s.position : Int) - s.lineStart + 1

def location (s : Scanner) : Location := ⟨s.filename, s.line, s.column, s.position⟩

def currentLine (s : Scanner) : String :=
  String.ofList (Text.upToLineFeed (s.source.drop s.lineStart))

/-- The lexeme at the cursor; white space and the end of the source have none. -/
def scan (s : Scanner) : Except LexicalError (TokenKind × List Char) :=
  match Lexeme.first? s.rest with
  | some found => .ok found
  | none => .error ⟨s.position, String.ofList s.rest, some s.location, some s.currentLine⟩

def token (s : Scanner) (kind : TokenKind) (lexeme : List Char) : Token :=
  ⟨kind, String.ofList lexeme, s.position, s.line, s.column, s.filename⟩

@[simp] theorem rest_advance (s : Scanner) (count : Nat) :
    (s.advance count).rest = s.rest.drop count := rfl

theorem length_rest_skipBlanks_le (s : Scanner) : s.skipBlanks.rest.length ≤ s.rest.length := by
  simp [skipBlanks]

theorem scan_eq_ok_iff {s : Scanner} {found : TokenKind × List Char} :
    s.scan = .ok found ↔ Lexeme.first? s.rest = some found := by
  unfold scan
  cases Lexeme.first? s.rest <;> simp

/-- Stepping over a lexeme leaves less to scan. -/
theorem length_rest_advance_lt {s : Scanner} {kind : TokenKind} {lexeme : List Char}
    (h : s.scan = .ok (kind, lexeme)) : (s.advance lexeme.length).rest.length < s.rest.length := by
  have hfirst := scan_eq_ok_iff.1 h
  have hlexeme := List.length_pos_iff.2 (Lexeme.first?_ne_nil hfirst)
  have hrest : 0 < s.rest.length := by
    rw [List.length_pos_iff]
    rintro hnil
    rw [hnil, Lexeme.first?_nil] at hfirst
    cases hfirst
  simp only [rest_advance, List.length_drop]
  omega

/-- The next token that is no comment, or none at the end, and the scanner behind it. -/
def next (s : Scanner) : Except LexicalError (Option Token) × Scanner :=
  let here := s.skipBlanks
  if here.atEnd then (.ok none, here)
  else
    match _ : here.scan with
    | .error e => (.error e, here)
    | .ok (kind, lexeme) =>
      let beyond := here.advance lexeme.length
      if kind = .comment then beyond.next else (.ok (some (here.token kind lexeme)), beyond)
termination_by s.rest.length
decreasing_by
  exact Nat.lt_of_lt_of_le (length_rest_advance_lt ‹_›) (length_rest_skipBlanks_le s)

/-- Taking a token leaves less to scan. -/
theorem length_rest_next_lt {s beyond : Scanner} {token : Token}
    (h : s.next = (.ok (some token), beyond)) : beyond.rest.length < s.rest.length := by
  fun_induction next s with
  | case1 => simp at h
  | case2 => simp at h
  | case3 s here _ lexeme beyond hscan ih =>
    exact Nat.lt_trans (ih h) (Nat.lt_of_lt_of_le (length_rest_advance_lt hscan)
      (length_rest_skipBlanks_le s))
  | case4 s here _ kind lexeme hscan beyond =>
    obtain ⟨-, rfl⟩ := Prod.mk.injEq .. ▸ h
    exact Nat.lt_of_lt_of_le (length_rest_advance_lt hscan) (length_rest_skipBlanks_le s)

def tokens (s : Scanner) : Except LexicalError (List Token) :=
  match _ : s.next with
  | (.error e, _) => .error e
  | (.ok none, _) => .ok []
  | (.ok (some token), beyond) => beyond.tokens.map (token :: ·)
termination_by s.rest.length
decreasing_by exact length_rest_next_lt ‹_›

end Scanner

/-- The tokens of a source text, comments left out. -/
def tokenize (source filename : String) : Except LexicalError (List Token) :=
  (Scanner.ofSource source filename).tokens

/-! ### Streams -/

/-- A scanner with the stream of tokens in use, which stays finished once it has ended. -/
structure TokenStream where
  scanner : Scanner
  finished : Bool

namespace TokenStream

def ofSource (source filename : String) : TokenStream := ⟨.ofSource source filename, false⟩

inductive Step where
  | next
  /-- Puts a new stream on the same scanner. -/
  | restart
  | scan
  | skipBlanks
  | advance (count : Nat)
  | currentLine

inductive Outcome where
  | nothing
  | token (token : Option Token)
  | lexeme (kind : TokenKind) (text : String)
  | line (text : String)
  | failure (error : LexicalError)

def next (s : TokenStream) : Outcome × TokenStream :=
  if s.finished then (.token none, s)
  else
    match s.scanner.next with
    | (.error e, scanner) => (.failure e, ⟨scanner, true⟩)
    | (.ok none, scanner) => (.token none, ⟨scanner, true⟩)
    | (.ok (some token), scanner) => (.token (some token), ⟨scanner, false⟩)

def perform (s : TokenStream) : Step → Outcome × TokenStream
  | .next => s.next
  | .restart => (.nothing, { s with finished := false })
  | .scan =>
    match s.scanner.scan with
    | .error e => (.failure e, s)
    | .ok (kind, lexeme) => (.lexeme kind (String.ofList lexeme), s)
  | .skipBlanks => (.nothing, { s with scanner := s.scanner.skipBlanks })
  | .advance count => (.nothing, { s with scanner := s.scanner.advance count })
  | .currentLine => (.line s.scanner.currentLine, s)

end TokenStream

end ShaderStruct
