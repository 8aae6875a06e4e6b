/-! # Numbers

A number is a signed multiple of `2 ^ -1074` whose significand fits in 53 bits, one
of the two infinities, or the undefined result. The magnitudes of the finite numbers
are indexed by their rank: listing them in increasing order, `0` has rank `0`, the
least positive one has rank `1`, and so on without a gap. A binade is a run of
`2 ^ 52` ranks over which the distance between neighbours stays the same.

Exact results are quotients of natural numbers, counted in units of `2 ^ -1074`. The
rounded number is the nearest one, and of two equally near ones the one of even rank.
A quotient that rounds past the last magnitude becomes infinite.
-/

namespace Reckoner

inductive Sign where
  | positive
  | negative
  deriving Repr, DecidableEq

namespace Sign

def flip : Sign → Sign
  | .positive => .negative
  | .negative => .positive

/-- The sign of a product or a quotient. -/
def times : Sign → Sign → Sign
  | .positive, sign => sign
  | .negative, sign => sign.flip

/-- The integer of the given sign and size. -/
def apply : Sign → Nat → Int
  | .positive, size => size
  | .negative, size => -size

def ofInt (n : Int) : Sign :=
  if n < 0 then .negative else .positive

end Sign

/-- How many neighbouring ranks lie at equal distances: `2 ^ 52`. -/
def binade : Nat := Nat.pow 2 52

/-- How many magnitudes there are. -/
def magnitudeCount : Nat := 2047 * binade

/-- How many units of `2 ^ -1074` make one. -/
def unitsPerOne : Nat := Nat.pow 2 1074

/-- The magnitude of a finite number, as its place among all of them. -/
structure Magnitude where
  rank : Nat
  rank_lt : rank < magnitudeCount
  deriving Repr, DecidableEq

namespace Magnitude

def zero : Magnitude := ⟨0, by decide⟩

/-- The number of times that the distance between neighbours has doubled. The two
    lowest binades share the least distance. -/
def exponent (m : Magnitude) : Nat := m.rank / binade - 1

def significand (m : Magnitude) : Nat := m.rank - m.exponent * binade

/-- The exact size, in units of `2 ^ -1074`. -/
def units (m : Magnitude) : Nat := m.significand * Nat.pow 2 m.exponent

end Magnitude

inductive Number where
  /-- The result of an operation that has no value. -/
  | nan
  | infinite (sign : Sign)
  | finite (sign : Sign) (magnitude : Magnitude)
  deriving Repr, DecidableEq

namespace Number

/-- The weight of the top bit of the interchange form. -/
def signWeight : Nat := Nat.pow 2 63

/-- Read a number from its interchange form: the sign in the top bit, the rank in the
    other 63. Ranks past the last magnitude stand for infinity and for `nan`. -/
def ofBits (bits : UInt64) : Number :=
  let sign := if bits.toNat < signWeight then Sign.positive else .negative
  let rank := bits.toNat % signWeight
  if h : rank < magnitudeCount then .finite sign ⟨rank, h⟩
  else if rank = magnitudeCount then .infinite sign
  else .nan

/-- The interchange form of a sign and a rank. -/
def signedBits (sign : Sign) (rank : Nat) : UInt64 :=
  match sign with
  | .positive => UInt64.ofNat rank
  | .negative => UInt64.ofNat (signWeight + rank)

/-- The interchange form. Of the many ranks that stand for `nan` it takes one. -/
def toBits : Number → UInt64
  | .nan => signedBits .positive (magnitudeCount + binade / 2)
  | .infinite sign => signedBits sign magnitudeCount
  | .finite sign magnitude => signedBits sign magnitude.rank

/-- Where a number stands in the order of all numbers; both zeros stand at `0`, and
    `nan` stands nowhere. -/
def place? : Number → Option Int
  | .nan => none
  | .infinite sign => some (sign.apply magnitudeCount)
  | .finite sign magnitude => some (sign.apply magnitude.rank)

/-- Compare by place. No comparison with `nan` holds. -/
def compareBy (holds : Int → Int → Bool) (a b : Number) : Bool :=
  match a.place?, b.place? with
  | some x, some y => holds x y
  | _, _ => false

def equals (a b : Number) : Bool := compareBy (fun x y => x == y) a b

def less (a b : Number) : Bool := compareBy (fun x y => decide (x < y)) a b

def lessOrEqual (a b : Number) : Bool := compareBy (fun x y => decide (x ≤ y)) a b

end Number

/-- The natural number nearest to `dividend / divisor`; a half goes to the even
    neighbour. -/
def nearestQuotient (dividend divisor : Nat) : Nat :=
  let quotient := dividend / divisor
  let doubled := 2 * (dividend % divisor)
  if doubled < divisor ∨ doubled = divisor ∧ quotient % 2 = 0 then quotient else quotient + 1

/-- The rank of the magnitude nearest to `dividend / divisor` units, on a scale that
    goes on past the last magnitude. Neighbours near the quotient are
    `2 ^ exponent` units apart. -/
def nearestRank (dividend divisor : Nat) : Nat :=
  let exponent := (dividend / divisor).log2 - 52
  exponent * binade + nearestQuotient dividend (divisor * Nat.pow 2 exponent)

/-- The number of the given sign nearest to `dividend / divisor` units. -/
def Number.round (sign : Sign) (dividend divisor : Nat) : Number :=
  if h : nearestRank dividend divisor < magnitudeCount then .finite sign ⟨_, h⟩
  else .infinite sign

end Reckoner
