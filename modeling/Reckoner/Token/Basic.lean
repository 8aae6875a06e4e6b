import Reckoner.Token.Kind
import Reckoner.Value

/-! # Tokens

A token is a piece of source together with what the scanner found out about it.
-/

namespace Reckoner

structure Token where
  kind : Kind
  /-- The text of the token as it stands in the source. -/
  lexeme : String
  literal : Option Value
  /-- The line on which the token ends. -/
  line : Nat
  deriving Repr, DecidableEq

namespace Token

/-- The token that closes every list of tokens. -/
def endOfInput (line : Nat) : Token := ⟨.endOfInput, "", none, line⟩

/-- Kind, lexeme and literal, with `null` for a token that has none. -/
def display (token : Token) : String :=
  let literal := match token.literal with
    | some value => value.display
    | none => "null"
  token.kind.name ++ " " ++ token.lexeme ++ " " ++ literal

/-- The value that a token stands for when it is an operand by itself. -/
def operandValue? (token : Token) : Option Value :=
  match token.kind with
  | .keyword .falseWord => some (.bool false)
  | .keyword .trueWord => some (.bool true)
  | .keyword .nilWord => some .nil
  | .number | .string => token.literal
  | _ => none

end Token

end Reckoner
