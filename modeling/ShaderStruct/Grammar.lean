import ShaderStruct.Reading
import ShaderStruct.Text.Similarity
import ShaderStruct.TypeName

/-!
# The grammar of struct declarations

One production for each part of a declaration. Types nest, so the productions of types call one
another, each on fewer tokens; lists of attributes, members and declarations are read as long as
their first token comes. Attributes that no member follows are read and dropped.
-/

namespace ShaderStruct.Context

/-! ### Integers and attributes -/

/-- The limit on digits applies to the token that has just been read. -/
def readInt (ctx : Context) (tokens : List Token) : Reading Int :=
  (ctx.take [.decimalInt] [] tokens).andThen fun token rest =>
    match Decimal.readLiteral token.text with
    | .ok value => .done value rest
    | .error e => .failed (.numeral e) rest

def readAttribute (ctx : Context) (tokens : List Token) : Reading Node :=
  (ctx.take [.punctuator] ["@"] tokens).andThen fun _ rest =>
  (ctx.take [.keyword] ["align", "size"] rest).andThen fun keyword rest =>
  (ctx.take [.punctuator] ["("] rest).andThen fun _ rest =>
  (ctx.readInt rest).andThen fun value rest =>
  (ctx.take [.punctuator] [")"] rest).map fun _ =>
    if keyword.text = "align" then .align value else .size value

theorem length_lt_of_readInt {ctx : Context} {tokens rest : List Token} {value : Int}
    (h : ctx.readInt tokens = .done value rest) : rest.length < tokens.length := by
  obtain ⟨token, middle, htake, h⟩ := Reading.andThen_eq_done_iff.1 h
  split at h
  · cases h
    exact length_lt_of_take htake
  · cases h

theorem length_lt_of_readAttribute {ctx : Context} {tokens rest : List Token} {node : Node}
    (h : ctx.readAttribute tokens = .done node rest) : rest.length < tokens.length := by
  obtain ⟨_, _, h₁, h⟩ := Reading.andThen_eq_done_iff.1 h
  obtain ⟨_, _, h₂, h⟩ := Reading.andThen_eq_done_iff.1 h
  obtain ⟨_, _, h₃, h⟩ := Reading.andThen_eq_done_iff.1 h
  obtain ⟨_, _, h₄, h⟩ := Reading.andThen_eq_done_iff.1 h
  obtain ⟨_, h₅, -⟩ := Reading.map_eq_done_iff.1 h
  have := length_lt_of_take h₁
  have := length_lt_of_take h₂
  have := length_lt_of_take h₃
  have := length_lt_of_readInt h₄
  have := length_lt_of_take h₅
  omega

def readAttributes (ctx : Context) (tokens : List Token) : Reading (List Node) :=
  if comes [.punctuator] ["@"] tokens then
    match _ : ctx.readAttribute tokens with
    | .done node rest => (ctx.readAttributes rest).map (node :: ·)
    | .failed failure rest => .failed failure rest
  else .done [] tokens
termination_by tokens.length
decreasing_by exact length_lt_of_readAttribute ‹_›

theorem length_le_of_readAttributes {ctx : Context} {tokens rest : List Token}
    {nodes : List Node} (h : ctx.readAttributes tokens = .done nodes rest) :
    rest.length ≤ tokens.length := by
  fun_induction readAttributes ctx tokens generalizing nodes with
  | case1 tokens _ node middle hattribute ih =>
    obtain ⟨_, h, -⟩ := Reading.map_eq_done_iff.1 h
    exact Nat.le_trans (ih h) (Nat.le_of_lt (length_lt_of_readAttribute hattribute))
  | case2 => cases h
  | case3 =>
    cases h
    exact Nat.le_refl _

/-! ### Types -/

/-- A name that is no keyword stands for a declaration in scope. If none has it, the name may still
be that of a shape with a letter it does not take. -/
def readNamed (ctx : Context) (token : Token) (rest : List Token) : Reading Node :=
  match ctx.scope.find? token.text with
  | some target => .done (.reference target) rest
  | none =>
    let unknown :=
      SyntaxProblem.unknownType token.text
        (Similarity.closeNames token.text ctx.scope.names)
    let problem :=
      match Shape.ofName? token.text.toList with
      | some (shape, some letter) =>
        if shape.letters.contains letter then unknown
        else .invalidShorthand token.text (String.ofList shape.letters)
      | _ => unknown
    .failed (ctx.problemAt problem (some token)) rest

mutual

def readType (ctx : Context) : List Token → Reading Node
  | [] => .failed (ctx.problemAt (.expected [.keyword, .identifier] []) none) []
  | token :: rest =>
    match token.kind with
    | .identifier => ctx.readNamed token rest
    | .keyword =>
      match TypeName.ofText? token.text with
      | some .array => ctx.readArray rest
      | some (.scalar kind) => .done (.scalar kind) rest
      | some (.shaped shape none) => (ctx.readTemplate rest).map shape.ofElement
      | some (.shaped shape (some letter)) =>
        match shape.scalar? letter with
        | some kind => .done (shape.ofElement (.scalar kind)) rest
        | none =>
          .failed (ctx.problemAt
            (.invalidShorthand token.text (String.ofList shape.letters)) (some token)) rest
      | none => .failed (ctx.problemAt .notAType (some token)) rest
    | _ =>
      .failed (ctx.problemAt (.expected [.keyword, .identifier] []) (some token))
        (token :: rest)
termination_by structural tokens => tokens

def readTemplate (ctx : Context) : List Token → Reading Node
  | [] => .failed (ctx.problemAt (.expected [.punctuator] ["<"]) none) []
  | token :: rest =>
    if token.fits [.punctuator] ["<"] then
      (ctx.readType rest).andThen fun element rest =>
      (ctx.take [.punctuator] [">"] rest).map fun _ => element
    else .failed (ctx.problemAt (.expected [.punctuator] ["<"]) (some token)) (token :: rest)
termination_by structural tokens => tokens

def readArray (ctx : Context) : List Token → Reading Node
  | [] => .failed (ctx.problemAt (.expected [.punctuator] ["<"]) none) []
  | token :: rest =>
    if token.fits [.punctuator] ["<"] then
      (ctx.readType rest).andThen fun element rest =>
      if comes [.punctuator] [","] rest then
        (ctx.readInt rest.tail).andThen fun count rest =>
        (ctx.take [.punctuator] [">"] rest).map fun _ => .fixedArray element count
      else (ctx.take [.punctuator] [">"] rest).map fun _ => .runtimeArray element
    else .failed (ctx.problemAt (.expected [.punctuator] ["<"]) (some token)) (token :: rest)
termination_by structural tokens => tokens

end

theorem rest_of_readNamed {ctx : Context} {token : Token} {tokens rest : List Token}
    {node : Node} (h : ctx.readNamed token tokens = .done node rest) : rest = tokens := by
  unfold readNamed at h
  split at h
  · cases h
    rfl
  · cases h

mutual

theorem length_lt_of_readType {ctx : Context} {rest : List Token} {node : Node} :
    (tokens : List Token) → ctx.readType tokens = .done node rest → rest.length < tokens.length
  | [], h => by simp [readType] at h
  | token :: more, h => by
    rw [readType] at h
    split at h
    · rw [rest_of_readNamed h]
      exact Nat.lt_succ_self _
    · split at h
      · exact Nat.lt_succ_of_lt (length_lt_of_readArray more h)
      · cases h
        exact Nat.lt_succ_self _
      · obtain ⟨_, h, -⟩ := Reading.map_eq_done_iff.1 h
        exact Nat.lt_succ_of_lt (length_lt_of_readTemplate more h)
      · split at h
        · cases h
          exact Nat.lt_succ_self _
        · cases h
      · cases h
    · cases h
termination_by structural tokens => tokens

theorem length_lt_of_readTemplate {ctx : Context} {rest : List Token} {node : Node} :
    (tokens : List Token) → ctx.readTemplate tokens = .done node rest →
      rest.length < tokens.length
  | [], h => by simp [readTemplate] at h
  | token :: more, h => by
    rw [readTemplate] at h
    split at h
    · obtain ⟨_, _, h₁, h⟩ := Reading.andThen_eq_done_iff.1 h
      obtain ⟨_, h₂, -⟩ := Reading.map_eq_done_iff.1 h
      have := length_lt_of_readType more h₁
      have := length_lt_of_take h₂
      simp only [List.length_cons]
      omega
    · cases h
termination_by structural tokens => tokens

theorem length_lt_of_readArray {ctx : Context} {rest : List Token} {node : Node} :
    (tokens : List Token) → ctx.readArray tokens = .done node rest →
      rest.length < tokens.length
  | [], h => by simp [readArray] at h
  | token :: more, h => by
    rw [readArray] at h
    split at h
    · obtain ⟨_, middle, h₁, h⟩ := Reading.andThen_eq_done_iff.1 h
      have := length_lt_of_readType more h₁
      simp only [List.length_cons]
      split at h
      · obtain ⟨_, _, h₂, h⟩ := Reading.andThen_eq_done_iff.1 h
        obtain ⟨_, h₃, -⟩ := Reading.map_eq_done_iff.1 h
        have := length_lt_of_readInt h₂
        have := length_lt_of_take h₃
        rw [List.length_tail] at *
        omega
      · obtain ⟨_, h₂, -⟩ := Reading.map_eq_done_iff.1 h
        have := length_lt_of_take h₂
        omega
    · cases h
termination_by structural tokens => tokens

end

/-! ### Members and structs -/

/-- A member, or none if no member name comes. -/
def readMember (ctx : Context) (tokens : List Token) : Reading (Option Member) :=
  (ctx.readAttributes tokens).andThen fun attributes rest =>
    match rest with
    | [] => .done none rest
    | name :: rest =>
      if name.fits [.identifier] [] then
        (ctx.take [.punctuator] [":"] rest).andThen fun _ rest =>
        (ctx.readType rest).map fun type => some ⟨name.text, type, attributes⟩
      else .done none (name :: rest)

theorem length_lt_of_readMember {ctx : Context} {tokens rest : List Token} {member : Member}
    (h : ctx.readMember tokens = .done (some member) rest) : rest.length < tokens.length := by
  obtain ⟨_, middle, h₁, h⟩ := Reading.andThen_eq_done_iff.1 h
  have := length_le_of_readAttributes h₁
  split at h
  · cases h
  · split at h
    · obtain ⟨_, _, h₂, h⟩ := Reading.andThen_eq_done_iff.1 h
      obtain ⟨_, h₃, -⟩ := Reading.map_eq_done_iff.1 h
      have := length_lt_of_take h₂
      have := length_lt_of_readType _ h₃
      simp only [List.length_cons] at *
      omega
    · cases h

theorem length_le_of_readMember {ctx : Context} {tokens rest : List Token}
    {member : Option Member} (h : ctx.readMember tokens = .done member rest) :
    rest.length ≤ tokens.length := by
  cases member with
  | some => exact Nat.le_of_lt (length_lt_of_readMember h)
  | none =>
    obtain ⟨_, middle, h₁, h⟩ := Reading.andThen_eq_done_iff.1 h
    have := length_le_of_readAttributes h₁
    split at h
    · cases h
      exact this
    · split at h
      · obtain ⟨_, _, -, h⟩ := Reading.andThen_eq_done_iff.1 h
        obtain ⟨_, -, h⟩ := Reading.map_eq_done_iff.1 h
        cases h
      · cases h
        exact this

/-- Members with commas between them; one may follow the last. -/
def readMembers (ctx : Context) (tokens : List Token) : Reading (List Member) :=
  match _ : ctx.readMember tokens with
  | .failed failure rest => .failed failure rest
  | .done none rest => .done [] rest
  | .done (some member) rest =>
    if comes [.punctuator] [","] rest then
      (ctx.readMembers rest.tail).map (member :: ·)
    else .done [member] rest
termination_by tokens.length
decreasing_by
  have := length_lt_of_readMember ‹_›
  rw [List.length_tail]
  omega

theorem length_le_of_readMembers {ctx : Context} {tokens rest : List Token}
    {members : List Member} (h : ctx.readMembers tokens = .done members rest) :
    rest.length ≤ tokens.length := by
  fun_induction readMembers ctx tokens generalizing members with
  | case1 => cases h
  | case2 tokens middle hmember =>
    cases h
    exact length_le_of_readMember hmember
  | case3 tokens member middle hmember _ ih =>
    obtain ⟨_, h, -⟩ := Reading.map_eq_done_iff.1 h
    have := ih h
    have := length_lt_of_readMember hmember
    rw [List.length_tail] at *
    omega
  | case4 tokens member middle hmember =>
    cases h
    exact Nat.le_of_lt (length_lt_of_readMember hmember)

/-- The keyword in front of a declaration may be missing. -/
def skipStruct (tokens : List Token) : List Token :=
  if comes [.keyword] ["struct"] tokens then tokens.tail else tokens

def readStruct (ctx : Context) (tokens : List Token) : Reading Struct :=
  (ctx.take [.identifier] [] (skipStruct tokens)).andThen fun name rest =>
  (ctx.take [.punctuator] ["\x7b"] rest).andThen fun _ rest =>
  (ctx.readMembers rest).andThen fun members rest =>
  (ctx.take [.punctuator] ["\x7d"] rest).map fun _ => ⟨name.text, members⟩

theorem length_lt_of_readStruct {ctx : Context} {tokens rest : List Token} {decl : Struct}
    (h : ctx.readStruct tokens = .done decl rest) : rest.length < tokens.length := by
  obtain ⟨_, _, h₁, h⟩ := Reading.andThen_eq_done_iff.1 h
  obtain ⟨_, _, h₂, h⟩ := Reading.andThen_eq_done_iff.1 h
  obtain ⟨_, _, h₃, h⟩ := Reading.andThen_eq_done_iff.1 h
  obtain ⟨_, h₄, -⟩ := Reading.map_eq_done_iff.1 h
  have := length_lt_of_take h₁
  have := length_lt_of_take h₂
  have := length_le_of_readMembers h₃
  have := length_lt_of_take h₄
  have : (skipStruct tokens).length ≤ tokens.length := by
    unfold skipStruct
    split
    · rw [List.length_tail]
      omega
    · exact Nat.le_refl _
  omega

end ShaderStruct.Context
