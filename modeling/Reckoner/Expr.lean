import Reckoner.Token.Basic

/-! # Expressions

Expression trees keep the tokens of their operators, so that a failing operation can be
placed in the source.
-/

namespace Reckoner

inductive Expr where
  | literal (value : Value)
  | group (inner : Expr)
  | unary (operator : Token) (operand : Expr)
  | binary (left : Expr) (operator : Token) (right : Expr)
  deriving Repr, DecidableEq

namespace Expr

/-- A leaf has height `1`, any other node one more than its tallest child. -/
def height : Expr → Nat
  | .literal _ => 1
  | .group inner => inner.height + 1
  | .unary _ operand => operand.height + 1
  | .binary left _ right => max left.height right.height + 1

/-- The tree in fully parenthesized form, each operator before its operands. -/
def display : Expr → String
  | .literal value => value.display
  | .group inner => "(group " ++ inner.display ++ ")"
  | .unary operator operand => "(" ++ operator.lexeme ++ " " ++ operand.display ++ ")"
  | .binary left operator right =>
      "(" ++ operator.lexeme ++ " " ++ left.display ++ " " ++ right.display ++ ")"

end Expr

end Reckoner
