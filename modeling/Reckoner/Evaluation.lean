import Reckoner.Expr
import Reckoner.Number.Arithmetic

/-! # Evaluation

Operands are evaluated from left to right, and only then is the operator applied to them.
-/

namespace Reckoner

/-- Why an operator cannot be applied to values of the given types. -/
inductive TypeFault where
  | needsNumber
  | needsNumbers
  | needsNumbersOrStrings
  deriving Repr, DecidableEq

def TypeFault.message : TypeFault → String
  | .needsNumber => "Operand must be number"
  | .needsNumbers => "Operands must be number"
  | .needsNumbersOrStrings => "Operands must be two numbers or two strings"

inductive Arity where
  | unary
  | binary
  deriving Repr, DecidableEq

def Arity.name : Arity → String
  | .unary => "unary"
  | .binary => "binary"

/-- Why an expression has no value. -/
inductive EvalError where
  | illTyped (fault : TypeFault) (operator : Token)
  /-- A tree that no source has: its operator is no operator of that arity. -/
  | notOperator (arity : Arity) (kind : Kind)
  deriving Repr, DecidableEq

def EvalError.message : EvalError → String
  | .illTyped fault _ => fault.message
  | .notOperator arity kind => kind.name ++ " is not a " ++ arity.name ++ " operator"

/-- Apply a unary operator. -/
def applyUnary (operator : Token) (operand : Value) : Except EvalError Value :=
  match operator.kind with
  | .minus =>
      match operand with
      | .number n => .ok (.number (-n))
      | _ => .error (.illTyped .needsNumber operator)
  | .bang => .ok (.bool !operand.countsAsTrue)
  | kind => .error (.notOperator .unary kind)

/-- Apply an operation that is for numbers only. -/
def onNumbers (operator : Token) (operation : Number → Number → Value) :
    Value → Value → Except EvalError Value
  | .number a, .number b => .ok (operation a b)
  | _, _ => .error (.illTyped .needsNumbers operator)

/-- Add numbers or join strings. -/
def addOrJoin (operator : Token) : Value → Value → Except EvalError Value
  | .number a, .number b => .ok (.number (a + b))
  | .text a, .text b => .ok (.text (a ++ b))
  | _, _ => .error (.illTyped .needsNumbersOrStrings operator)

/-- Apply a binary operator. -/
def applyBinary (operator : Token) (left right : Value) : Except EvalError Value :=
  match operator.kind with
  | .equalEqual => .ok (.bool (left.equals right))
  | .bangEqual => .ok (.bool !left.equals right)
  | .plus => addOrJoin operator left right
  | .minus => onNumbers operator (fun a b => .number (a - b)) left right
  | .star => onNumbers operator (fun a b => .number (a * b)) left right
  | .slash => onNumbers operator (fun a b => .number (a / b)) left right
  | .less => onNumbers operator (fun a b => .bool (a.less b)) left right
  | .lessEqual => onNumbers operator (fun a b => .bool (a.lessOrEqual b)) left right
  | .greater => onNumbers operator (fun a b => .bool (b.less a)) left right
  | .greaterEqual => onNumbers operator (fun a b => .bool (b.lessOrEqual a)) left right
  | kind => .error (.notOperator .binary kind)

def Expr.evaluate : Expr → Except EvalError Value
  | .literal value => .ok value
  | .group inner => inner.evaluate
  | .unary operator operand => do
      let value ← operand.evaluate
      applyUnary operator value
  | .binary left operator right => do
      let a ← left.evaluate
      let b ← right.evaluate
      applyBinary operator a b

end Reckoner
