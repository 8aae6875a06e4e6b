import Reckoner.Number.Decimal

/-! # Shortest decimals

Every magnitude is a whole number of steps of `10 ^ -1074`. The decimals with few
digits are the points of coarser grids, whose steps are `10 ^ index` times as long. The
search starts on a grid that is too coarse for the magnitude and refines it until one of
the magnitude's two neighbours on the grid rounds back to it. That grid needs the fewest
digits. If both neighbours round back the nearer one is taken, and the upper one of two
equally near.

Finite numbers are written with their shortest decimal, never with an exponent. Both
zeros are written `0`.
-/

namespace Reckoner

namespace Magnitude

/-- The exact size, in steps of `10 ^ -1074`. -/
def decimalSteps (m : Magnitude) : Nat := m.units * Nat.pow 5 1074

/-- The decimal of `count` steps of `10 ^ index` each. -/
def gridPoint (index count : Nat) : Decimal :=
  ⟨count * Nat.pow 10 (index - 1074), 1074 - index⟩

/-- Does the decimal round to this magnitude? -/
def isNearestTo (m : Magnitude) (d : Decimal) : Bool :=
  d.toNumber == .finite .positive m

/-- The one of two decimals that will do. If both do, it is told which is the nearer. -/
def choose? (willDo : Decimal → Bool) (lower upper : Decimal) (lowerIsNearer : Bool) :
    Option Decimal :=
  match willDo lower, willDo upper with
  | true, true => some (if lowerIsNearer then lower else upper)
  | true, false => some lower
  | false, true => some upper
  | false, false => none

/-- The neighbour on the grid of the given index that rounds to this magnitude. -/
def neighbour? (m : Magnitude) (index : Nat) : Option Decimal :=
  let step := Nat.pow 10 index
  let count := m.decimalSteps / step
  choose? m.isNearestTo (gridPoint index count) (gridPoint index (count + 1))
    (2 * (m.decimalSteps % step) < step)

/-- Refine the grid until a decimal is found on it. On the finest grid it is known. -/
def refine (find? : Nat → Option Decimal) (finest : Decimal) : Nat → Decimal
  | 0 => finest
  | index + 1 =>
      match find? (index + 1) with
      | some decimal => decimal
      | none => refine find? finest index

/-- The index of a grid whose step is longer than the magnitude. It rests on
    `2 ^ 93 < 10 ^ 28`. -/
def coarseIndex (m : Magnitude) : Nat := (m.decimalSteps.log2 + 1) * 28 / 93 + 1

/-- The decimal with the fewest digits that rounds to this magnitude. -/
def shortest (m : Magnitude) : Decimal :=
  refine m.neighbour? (gridPoint 0 m.decimalSteps) m.coarseIndex

end Magnitude

def Sign.text : Sign → String
  | .positive => ""
  | .negative => "-"

def Number.text : Number → String
  | .nan => "NaN"
  | .infinite sign => sign.text ++ "Infinity"
  | .finite sign magnitude =>
      if magnitude = .zero then "0"
      else sign.text ++ String.ofList magnitude.shortest.toText

end Reckoner
