import Reckoner.Token.Kind

/-! # Precedence

Binary operators come in four levels. Operators of one level group to the left, and
operands of a level are expressions of the next tighter one. Unary operators bind
tighter than all of them.
-/

namespace Reckoner

/-- The levels of binary operators, loosest first. -/
inductive Level where
  | equality
  | comparison
  | term
  | factor
  deriving Repr, DecidableEq

namespace Kind

/-- The level of a binary operator. -/
def level? : Kind → Option Level
  | .bangEqual | .equalEqual => some .equality
  | .greater | .greaterEqual | .less | .lessEqual => some .comparison
  | .minus | .plus => some .term
  | .slash | .star => some .factor
  | _ => none

def isUnary : Kind → Bool
  | .bang | .minus => true
  | _ => false

end Kind

end Reckoner
