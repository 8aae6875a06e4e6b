import Reckoner.Number.Shortest

/-! # Values

Literals and results are the same values. A value of one type never equals a value of
another, and only `nil` and `false` count as false.
-/

namespace Reckoner

inductive Value where
  | number (n : Number)
  | text (s : String)
  | bool (b : Bool)
  | nil
  deriving Repr, DecidableEq

namespace Value

def countsAsTrue : Value → Bool
  | .nil => false
  | .bool b => b
  | _ => true

/-- Equality as programs see it. Numbers compare by place, so the zeros are equal and
    `nan` equals nothing. -/
def equals : Value → Value → Bool
  | .number a, .number b => a.equals b
  | .text a, .text b => a == b
  | .bool a, .bool b => a == b
  | .nil, .nil => true
  | _, _ => false

/-- What is printed for a value; strings are printed as they are. -/
def display : Value → String
  | .number n => n.text
  | .text s => s
  | .bool true => "true"
  | .bool false => "false"
  | .nil => "nil"

end Value

end Reckoner
