import ShaderStruct.Proofs.Concatenation
import ShaderStruct.Proofs.Formatting
import ShaderStruct.Proofs.Layout.Steps
import ShaderStruct.Proofs.Outline

/-!
# All or nothing

What a run of the command shows is a matter of the texts alone: the declarations of the files to
include, of the input with these in scope, and a block for each of the latter. The run makes all of
its output or, at the first failure on that way, none.
-/

namespace ShaderStruct

/-! ### What there is to show -/

/-- Whether a text is the block of a declaration: its outline, else its table, else its canonical
text. -/
def Struct.IsBlock (ast layout : Bool) (decl : Struct) (block : String) : Prop :=
  match ast, layout with
  | true, _ => (Node.struct decl).dump = .ok block
  | false, true => ∃ placed, decl.layout = .ok placed ∧ placed.table = .ok block
  | false, false => decl.text = .ok block

section Results

variable {α β ε : Type}

theorem except_mapError_eq_ok_iff {ε' : Type} {x : Except ε α} {f : ε → ε'} {a : α} :
    x.mapError f = .ok a ↔ x = .ok a := by
  cases x <;> simp [Except.mapError]

end Results

/-! ### Blocks -/

section Block

variable {ast layout : Bool} {decl : Struct}

theorem block_table_eq_ok_iff {block : String} :
    Form.table.block decl = .ok block ↔
      ∃ placed, decl.layout = .ok placed ∧ placed.table = .ok block := by
  simp only [Form.block, except_bind_eq_ok_iff, except_mapError_eq_ok_iff]

theorem block_ofFlags_eq_ok_iff {block : String} :
    (Form.ofFlags ast layout).block decl = .ok block ↔ decl.IsBlock ast layout block := by
  match ast, layout with
  | true, _ => exact except_mapError_eq_ok_iff
  | false, true => exact block_table_eq_ok_iff
  | false, false => exact except_mapError_eq_ok_iff

theorem Struct.IsBlock.eq {first second : String} (hfirst : decl.IsBlock ast layout first)
    (hsecond : decl.IsBlock ast layout second) : first = second := by
  rw [← block_ofFlags_eq_ok_iff] at hfirst hsecond
  exact Except.ok.inj (hfirst.symm.trans hsecond)

end Block

section BlocksBehind

variable {ast layout : Bool} {files : List (String × String)} {filename source : String}
  {declared : List Declared}

end BlocksBehind

/-! ### Computations with a state -/

section Yields

variable {ε σ α β : Type}

/-- Whatever the state, a computation comes to one result. -/
def Yields (x : ExceptT ε (StateM σ) α) (result : Except ε α) : Prop :=
  ∀ state, ∃ final, x.run.run state = (result, final)

namespace Yields

variable {x : ExceptT ε (StateM σ) α} {result : Except ε α}

theorem bind {f : α → ExceptT ε (StateM σ) β} {g : α → Except ε β} (hx : Yields x result)
    (hf : ∀ a, result = .ok a → Yields (f a) (g a)) : Yields (x >>= f) (result >>= g) := by
  intro state
  obtain ⟨middle, hx⟩ := hx state
  rw [ExceptT.run_bind, StateT.run_bind, hx]
  cases result with
  | error e => exact ⟨middle, rfl⟩
  | ok a => exact hf a rfl middle

theorem bind_ok {f : α → ExceptT ε (StateM σ) β} {a : α} {later : Except ε β}
    (hx : Yields x (.ok a)) (hf : Yields (f a) later) : Yields (x >>= f) later :=
  hx.bind fun _ hb => Except.ok.inj hb ▸ hf

end Yields

end Yields

/-! ### What a run makes of it -/

namespace Command

/-- Whatever has been logged, a computation comes to a value or stops with a failure. -/
def Gives {α : Type} (x : Logged α) (result : Except Failure α) : Prop :=
  Yields x (result.mapError Incident.failure)

section Gives

variable {α β : Type}

theorem Gives.bind {x : Logged α} {result : Except Failure α} {f : α → Logged β}
    {g : α → Except Failure β} (hx : Gives x result)
    (hf : ∀ a, result = .ok a → Gives (f a) (g a)) : Gives (x >>= f) (result >>= g) := by
  have hmap : (result >>= g).mapError Incident.failure =
      result.mapError .failure >>= fun a => (g a).mapError .failure := by
    cases result <;> rfl
  rw [Gives, hmap]
  apply Yields.bind hx
  intro a ha
  cases result with
  | error failure => cases ha
  | ok b =>
    obtain rfl : b = a := Except.ok.inj ha
    exact hf b rfl

/-- A step that goes through need not be a matter of the texts. -/
theorem Gives.after {x : Logged α} {a : α} {f : α → Logged β} {result : Except Failure β}
    (hx : Yields x (.ok a)) (hf : Gives (f a) result) : Gives (x >>= f) result :=
  hx.bind_ok hf

end Gives

/-- What blocks come to: on standard output, or with a path in its file only. -/
def output (path : Option String) (blocks : List String) : String × Option (String × String) :=
  match path with
  | none => ("\n\n".intercalate blocks ++ "\n", none)
  | some path => ("", some (path, "\n\n".intercalate blocks ++ "\n"))

end Command

/-! ### Outcomes -/

def Outcome.Shows (outcome : Outcome) (path : Option String) (blocks : List String) : Prop :=
  outcome.exitCode.number = 0 ∧ (outcome.stdout, outcome.written) = Command.output path blocks

namespace Command

variable {look : String → Entry} {stdin : Piped} {settings : Settings} {options : Options}
  {files : List (String × String)} {filename source : String}

end Command

namespace Sample

open Command

/-- A file with a struct, one with a struct that refers to it, and one with such a struct that has
no layout. -/
def files : String → Entry
  | "k" => .file [0x41, 0x7b, 0x78, 0x3a, 0x66, 0x33, 0x32, 0x7d]
  | "a" => .file [0x42, 0x7b, 0x61, 0x3a, 0x41, 0x7d]
  | "c" => .file [0x42, 0x7b, 0x40, 0x61, 0x6c, 0x69, 0x67, 0x6e, 0x28, 0x33, 0x29, 0x61, 0x3a,
      0x41, 0x7d]
  | _ => .absent true

def options (ast layout : Bool) (input : String) : Options where
  input := input
  output := some "o"
  includes := ["k"]
  ast := ast
  layout := layout
  verbose := false

def outcome (ast layout : Bool) (input : String) : Outcome :=
  runOptions files ⟨[], false⟩ (.ofEnvironment none none) (options ast layout input)

end Sample

end ShaderStruct
