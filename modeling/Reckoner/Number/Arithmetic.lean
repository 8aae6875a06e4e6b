import Reckoner.Number.Basic

/-! # Arithmetic

Each operation is carried out exactly on units and rounded once. The signs of zeros
and the results at infinity follow the sign rules of multiplication; a sum of opposite
numbers is the positive zero.
-/

namespace Reckoner.Number

def neg : Number → Number
  | .nan => .nan
  | .infinite sign => .infinite sign.flip
  | .finite sign magnitude => .finite sign.flip magnitude

def add : Number → Number → Number
  | .finite s a, .finite t b =>
      let sum := s.apply a.units + t.apply b.units
      if sum = 0 then .finite (if s = t then s else .positive) .zero
      else round (Sign.ofInt sum) sum.natAbs 1
  | .infinite s, .infinite t => if s = t then .infinite s else .nan
  | .infinite s, .finite _ _ => .infinite s
  | .finite _ _, .infinite t => .infinite t
  | _, _ => .nan

def sub (a b : Number) : Number := a.add b.neg

def mul : Number → Number → Number
  | .finite s a, .finite t b => round (s.times t) (a.units * b.units) unitsPerOne
  | .infinite s, .infinite t => .infinite (s.times t)
  | .infinite s, .finite t b => if b = .zero then .nan else .infinite (s.times t)
  | .finite s a, .infinite t => if a = .zero then .nan else .infinite (s.times t)
  | _, _ => .nan

def div : Number → Number → Number
  | .finite s a, .finite t b =>
      if b = .zero then
        if a = .zero then .nan else .infinite (s.times t)
      else round (s.times t) (a.units * unitsPerOne) b.units
  | .infinite s, .finite t _ => .infinite (s.times t)
  | .finite s _, .infinite t => .finite (s.times t) .zero
  | _, _ => .nan

instance : Neg Number := ⟨neg⟩
instance : Add Number := ⟨add⟩
instance : Sub Number := ⟨sub⟩
instance : Mul Number := ⟨mul⟩
instance : Div Number := ⟨div⟩

end Reckoner.Number
