import ShaderStruct.Cursor
import ShaderStruct.Main
import ShaderStruct.Workspace
import ShaderStruct.Proofs.Character
import ShaderStruct.Proofs.Lexeme
import ShaderStruct.Proofs.Numeral
import ShaderStruct.Proofs.Words
import ShaderStruct.Proofs.Grammar.Derivation
import ShaderStruct.Proofs.Grammar.Production
import ShaderStruct.Proofs.Grammar.Attribute
import ShaderStruct.Proofs.Grammar.Type
import ShaderStruct.Proofs.Grammar.Declaration
import ShaderStruct.Proofs.Grammar.Acceptance
import ShaderStruct.Proofs.Grammar.Normal
import ShaderStruct.Proofs.RoundTrip
import ShaderStruct.Proofs.Layout.Rounding
import ShaderStruct.Proofs.Layout.Steps
import ShaderStruct.Proofs.Layout.Placement
import ShaderStruct.Proofs.Produced
import ShaderStruct.Proofs.Layout.Part
import ShaderStruct.Proofs.Layout.Soundness
import ShaderStruct.Proofs.Longest
import ShaderStruct.Proofs.Partition
import ShaderStruct.Proofs.Concatenation
import ShaderStruct.Proofs.Grammar.Earliest
import ShaderStruct.Proofs.Layout.Following
import ShaderStruct.Proofs.NormalForm
import ShaderStruct.Proofs.Printable
import ShaderStruct.Proofs.Formatting
import ShaderStruct.Proofs.Session
import ShaderStruct.Proofs.Stepping
import ShaderStruct.Proofs.Layout.Rules
import ShaderStruct.Proofs.Layout.Existence
import ShaderStruct.Proofs.Layout.Limit
import ShaderStruct.Proofs.Layout.Repetition
import ShaderStruct.Proofs.Outline
import ShaderStruct.Proofs.AllOrNothing
import ShaderStruct.Proofs.Layout.Appending
import ShaderStruct.Proofs.Respacing
import ShaderStruct.Proofs.LineEnds
import ShaderStruct.Proofs.Visibility
import ShaderStruct.Proofs.Yielding
import ShaderStruct.Proofs.Serial
import ShaderStruct.Proofs.Caret
import ShaderStruct.Proofs.Suggestion
import ShaderStruct.Proofs.Grammar.Position
import ShaderStruct.Proofs.Layout.Columns
import ShaderStruct.Proofs.Layout.Reordering
import ShaderStruct.Proofs.Literal
