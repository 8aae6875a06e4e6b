import Mathlib.Algebra.Order.Field.Rat
import Mathlib.Order.Monotone.Basic
import Mathlib.Tactic.FieldSimp
import Mathlib.Tactic.Linarith
import Mathlib.Tactic.LinearCombination
import Mathlib.Tactic.Positivity
import Mathlib.Tactic.Ring
import Reckoner.Number.Decimal

/-! # Nearest numbers

What it means that a magnitude is the nearest one to an exact size: no other size with a
significand of 53 bits is nearer, and if another one is just as near the significand is even.
Sizes past the last magnitude count as others, so an exact size that is nearer to one of them
than to all magnitudes has no nearest magnitude. Rounding a decimal finds the nearest magnitude.
-/

namespace Reckoner

namespace Magnitude

/-- The exact size of a magnitude. -/
def size (m : Magnitude) : ℚ := m.units / unitsPerOne

end Magnitude

/-- A size with a significand of 53 bits. There is a least scale but no greatest one. -/
def OnScale (size : ℚ) : Prop :=
  ∃ significand shift : ℕ, significand < 2 ^ 53 ∧
    size = (significand * 2 ^ shift : ℕ) / (unitsPerOne : ℚ)

/-- Nothing on the scale is nearer to the exact size than the magnitude, and if something else is
    just as near its significand is even. -/
structure Magnitude.IsNearest (m : Magnitude) (exact : ℚ) : Prop where
  nearest : ∀ size, OnScale size → |exact - m.size| ≤ |exact - size|
  even : ∀ size, OnScale size → size ≠ m.size → |exact - size| = |exact - m.size| →
    m.significand % 2 = 0

/-- The exact value of a decimal. -/
def Decimal.value (d : Decimal) : ℚ := d.digits / 10 ^ d.places

theorem Decimal.value_append (whole places : List Char) :
    (Decimal.mk (Nat.ofDigitChars 10 (whole ++ places) 0) places.length).value =
      Nat.ofDigitChars 10 whole 0 + Nat.ofDigitChars 10 places 0 / 10 ^ places.length := by
  rw [value, Nat.ofDigitChars_append, Nat.ofDigitChars_eq_ofDigitChars_zero]
  push_cast
  field_simp

theorem unitsPerOne_pos : (0 : ℚ) < unitsPerOne := by
  unfold unitsPerOne
  generalize 1074 = places
  exact Nat.cast_pos.mpr (Nat.pow_pos (by decide))

/-- The units of the size of a rank. No rank is the last one here. -/
def unitsAt (rank : ℕ) : ℕ := (rank - (rank / binade - 1) * binade) * 2 ^ (rank / binade - 1)

theorem binade_eq : binade = 4503599627370496 := rfl

/-- The ranks of one exponent, the first one of the next exponent included, are at equal
    distances. -/
theorem unitsAt_grid {exponent count : ℕ} (le : count ≤ 2 * binade)
    (normal : exponent = 0 ∨ binade ≤ count) :
    unitsAt (exponent * binade + count) = count * 2 ^ exponent := by
  rcases Nat.lt_or_eq_of_le le with less | rfl
  · have same : (exponent * binade + count) / binade - 1 = exponent := by
      rw [binade_eq] at *
      omega
    rw [unitsAt, same, Nat.add_sub_cancel_left]
  · have next : (exponent * binade + 2 * binade) / binade - 1 = exponent + 1 := by
      rw [binade_eq]
      omega
    have first : exponent * binade + 2 * binade - (exponent + 1) * binade = binade := by
      rw [binade_eq]
      omega
    rw [unitsAt, next, first, pow_succ]
    ring

theorem exists_grid (rank : ℕ) :
    ∃ exponent count, count < 2 * binade ∧ (exponent = 0 ∨ binade ≤ count) ∧
      rank = exponent * binade + count := by
  refine ⟨rank / binade - 1, rank - (rank / binade - 1) * binade, ?_⟩
  rw [binade_eq]
  omega

theorem unitsAt_strictMono : StrictMono unitsAt := by
  refine strictMono_nat_of_lt_succ fun rank => ?_
  obtain ⟨exponent, count, less, normal, rfl⟩ := exists_grid rank
  have normal' : exponent = 0 ∨ binade ≤ count + 1 := by omega
  rw [Nat.add_assoc, unitsAt_grid (Nat.le_of_lt less) normal, unitsAt_grid less normal']
  exact Nat.mul_lt_mul_of_pos_right (Nat.lt_succ_self count) (by positivity)

theorem exists_unitsAt_eq {significand : ℕ} (less : significand < 2 ^ 53) (shift : ℕ) :
    ∃ rank, unitsAt rank = significand * 2 ^ shift := by
  have binade_eq := binade_eq
  induction shift generalizing significand with
  | zero =>
      refine ⟨significand, ?_⟩
      have low := @unitsAt_grid 0 significand (by omega) (.inl rfl)
      rwa [Nat.zero_mul, Nat.zero_add] at low
  | succ shift ih =>
      by_cases small : significand < binade
      · obtain ⟨rank, isRank⟩ := @ih (2 * significand) (by omega)
        refine ⟨rank, ?_⟩
        rw [isRank, pow_succ]
        ring
      · exact ⟨(shift + 1) * binade + significand, unitsAt_grid (by omega) (by omega)⟩

theorem onScale_iff (size : ℚ) : OnScale size ↔ ∃ rank, size = unitsAt rank / unitsPerOne := by
  constructor
  · rintro ⟨significand, shift, less, isSize⟩
    obtain ⟨rank, isRank⟩ := exists_unitsAt_eq less shift
    exact ⟨rank, by rw [isSize, isRank]⟩
  · rintro ⟨rank, isSize⟩
    obtain ⟨exponent, count, less, normal, rfl⟩ := exists_grid rank
    rw [unitsAt_grid (Nat.le_of_lt less) normal] at isSize
    exact ⟨count, exponent, less, isSize⟩

/-- No other rank is nearer to the exact number of units, and if one is just as near this one is
    even. -/
structure IsNearestRank (rank : ℕ) (units : ℚ) : Prop where
  nearest : ∀ other, |units - unitsAt rank| ≤ |units - unitsAt other|
  even : ∀ other ≠ rank, |units - unitsAt other| = |units - unitsAt rank| → rank % 2 = 0

theorem unitsAt_lt {rank other : ℕ} (less : rank < other) : (unitsAt rank : ℚ) < unitsAt other :=
  Nat.cast_lt.mpr (unitsAt_strictMono less)

theorem unitsAt_le {rank other : ℕ} (le : rank ≤ other) : (unitsAt rank : ℚ) ≤ unitsAt other :=
  Nat.cast_le.mpr (unitsAt_strictMono.monotone le)

/-- One of the two ranks around the exact units is nearer to them than any rank farther off. -/
theorem exists_nearer_neighbour {rank : ℕ} {units : ℚ} (above : unitsAt rank ≤ units)
    (below : units ≤ unitsAt (rank + 1)) (other : ℕ) :
    ∃ neighbour, (neighbour = rank ∨ neighbour = rank + 1) ∧
      |units - unitsAt neighbour| ≤ |units - unitsAt other| ∧
      (|units - unitsAt neighbour| = |units - unitsAt other| → other = neighbour) := by
  have injective {first second : ℕ} (same : (unitsAt first : ℚ) = unitsAt second) :
      first = second :=
    unitsAt_strictMono.injective (Nat.cast_injective same)
  rcases Nat.lt_or_ge rank other with less | le
  · have farther := unitsAt_le less
    refine ⟨rank + 1, .inr rfl, ?_⟩
    rw [abs_of_nonpos (by linarith), abs_of_nonpos (by linarith)]
    exact ⟨by linarith, fun same => injective (by linarith)⟩
  · have farther := unitsAt_le le
    refine ⟨rank, .inl rfl, ?_⟩
    rw [abs_of_nonneg (by linarith), abs_of_nonneg (by linarith)]
    exact ⟨by linarith, fun same => injective (by linarith)⟩

namespace IsNearestRank

variable {rank other : ℕ} {units : ℚ}

theorem of_neighbours {chosen : ℕ} (above : unitsAt rank ≤ units)
    (below : units ≤ unitsAt (rank + 1)) (around : chosen = rank ∨ chosen = rank + 1)
    (nearLower : |units - unitsAt chosen| ≤ |units - unitsAt rank|)
    (nearUpper : |units - unitsAt chosen| ≤ |units - unitsAt (rank + 1)|)
    (even : |units - unitsAt rank| = |units - unitsAt (rank + 1)| → chosen % 2 = 0) :
    IsNearestRank chosen units := by
  have near (neighbour : ℕ) (isNeighbour : neighbour = rank ∨ neighbour = rank + 1) :
      |units - unitsAt chosen| ≤ |units - unitsAt neighbour| := by
    rcases isNeighbour with rfl | rfl
    · exact nearLower
    · exact nearUpper
  constructor
  · intro other
    obtain ⟨neighbour, isNeighbour, nearer, -⟩ := exists_nearer_neighbour above below other
    exact (near neighbour isNeighbour).trans nearer
  · intro other different same
    obtain ⟨neighbour, isNeighbour, nearer, only⟩ := exists_nearer_neighbour above below other
    obtain rfl := only (le_antisymm nearer (same.le.trans (near neighbour isNeighbour)))
    -- The other neighbour of the exact units is the one that is just as near.
    apply even
    rcases around with rfl | rfl <;> rcases isNeighbour with rfl | rfl
    · exact absurd rfl different
    · exact same.symm
    · exact same
    · exact absurd rfl different

theorem not_lt (one : IsNearestRank rank units) (two : IsNearestRank other units) :
    ¬ rank < other := by
  -- Two ranks that are equally near have none between them, so they are not both even.
  intro less
  have same : |units - unitsAt other| = |units - unitsAt rank| :=
    le_antisymm (two.nearest rank) (one.nearest other)
  have even := one.even other (Nat.ne_of_gt less) same
  have evenOther := two.even rank (Nat.ne_of_lt less) same.symm
  have lowest := unitsAt_lt less
  have between := one.nearest (rank + 1)
  have lower := unitsAt_lt (Nat.lt_succ_self rank)
  have upper := unitsAt_lt (show rank + 1 < other by omega)
  -- The exact units lie half-way, so the rank between is nearer.
  rcases abs_eq_abs.mp same with equal | opposite
  · linarith
  · have middle : units - unitsAt rank = (unitsAt other - unitsAt rank) / 2 := by linarith
    have nearer : |units - unitsAt (rank + 1)| < |units - unitsAt rank| := by
      rw [abs_of_nonneg (show 0 ≤ units - unitsAt rank by linarith), abs_lt]
      constructor <;> linarith
    linarith

theorem unique (one : IsNearestRank rank units) (two : IsNearestRank other units) :
    rank = other :=
  Nat.le_antisymm (Nat.not_lt.mp (two.not_lt one)) (Nat.not_lt.mp (one.not_lt two))

end IsNearestRank

theorem scaled_quotient (quotient : ℕ) :
    let exponent := quotient.log2 - 52
    quotient / 2 ^ exponent < 2 * binade ∧
      (exponent = 0 ∨ binade ≤ quotient / 2 ^ exponent) := by
  intro exponent
  have binade_pow : binade = 2 ^ 52 := rfl
  have scale : 0 < 2 ^ exponent := by positivity
  by_cases zero : quotient = 0
  · subst zero
    exact ⟨by rw [Nat.zero_div, binade_eq]; decide, .inl (by decide)⟩
  · have lower : 2 ^ quotient.log2 ≤ quotient := Nat.log2_self_le zero
    have upper : quotient < 2 ^ (quotient.log2 + 1) := Nat.lt_log2_self
    rw [Nat.div_lt_iff_lt_mul scale, Nat.le_div_iff_mul_le scale, binade_pow, ← pow_succ',
      ← pow_add, ← pow_add]
    constructor
    · exact upper.trans_le (Nat.pow_le_pow_right (by decide) (by omega))
    · rcases Nat.lt_or_ge 52 quotient.log2 with large | small
      · exact .inr ((Nat.pow_le_pow_right (by decide) (by omega)).trans lower)
      · exact .inl (by omega)

/-- A quotient lies between two ranks, and it is rounded to the nearer one. -/
theorem nearestRank_between (dividend : ℕ) {divisor : ℕ} (positive : 0 < divisor) :
    ∃ rank remainder missing : ℕ,
      (dividend / divisor : ℚ) - unitsAt rank = remainder / divisor ∧
      (unitsAt (rank + 1) : ℚ) - dividend / divisor = missing / divisor ∧
      nearestRank dividend divisor =
        if remainder < missing ∨ remainder = missing ∧ rank % 2 = 0 then rank else rank + 1 := by
  obtain ⟨less, normal⟩ := scaled_quotient (dividend / divisor)
  unfold nearestRank nearestQuotient
  generalize (dividend / divisor).log2 - 52 = exponent at less normal
  simp only [Nat.pow_eq] at *
  rw [Nat.div_div_eq_div_mul] at less normal
  have parts := Nat.div_add_mod dividend (divisor * 2 ^ exponent)
  have small := Nat.mod_lt dividend (show 0 < divisor * 2 ^ exponent by positivity)
  generalize dividend / (divisor * 2 ^ exponent) = count at *
  generalize dividend % (divisor * 2 ^ exponent) = remainder at *
  obtain ⟨missing, whole⟩ := Nat.exists_eq_add_of_le small.le
  have scale : (0 : ℚ) < divisor := Nat.cast_pos.mpr positive
  have isQuotient : (dividend / divisor : ℚ) = count * 2 ^ exponent + remainder / divisor := by
    rw [← parts]
    push_cast
    field_simp
  have isStep : (2 ^ exponent : ℚ) = (remainder + missing) / divisor := by
    rw [eq_div_iff scale.ne', mul_comm]
    exact_mod_cast whole
  refine ⟨exponent * binade + count, remainder, missing, ?_, ?_, ?_⟩
  · rw [unitsAt_grid less.le normal, isQuotient]
    push_cast
    ring
  · rw [Nat.add_assoc, @unitsAt_grid exponent (count + 1) less (by omega), isQuotient]
    push_cast
    linear_combination isStep
  · have even : (exponent * binade + count) % 2 = count % 2 := by
      rw [binade_eq]
      omega
    have down : (2 * remainder < divisor * 2 ^ exponent ∨
        2 * remainder = divisor * 2 ^ exponent ∧ count % 2 = 0) ↔
          remainder < missing ∨ remainder = missing ∧ (exponent * binade + count) % 2 = 0 := by
      rw [even]
      omega
    simp only [down]
    split
    · rfl
    · exact (Nat.add_assoc _ _ _).symm

/-- Rounding a quotient of units gives the nearest rank. -/
theorem isNearestRank_nearestRank (dividend : ℕ) {divisor : ℕ} (positive : 0 < divisor) :
    IsNearestRank (nearestRank dividend divisor) (dividend / divisor) := by
  obtain ⟨rank, remainder, missing, lower, upper, chosen⟩ := nearestRank_between dividend positive
  have scale : (0 : ℚ) < divisor := Nat.cast_pos.mpr positive
  have above : (0 : ℚ) ≤ dividend / divisor - unitsAt rank := by
    rw [lower]
    positivity
  have below : (0 : ℚ) ≤ unitsAt (rank + 1) - dividend / divisor := by
    rw [upper]
    positivity
  have lowerDistance := (abs_of_nonneg above).trans lower
  have upperDistance := (abs_of_nonneg below).trans upper
  rw [abs_sub_comm] at upperDistance
  rw [chosen]
  split
  · rename_i down
    refine .of_neighbours (sub_nonneg.mp above) (sub_nonneg.mp below) (.inl rfl) le_rfl ?_ ?_
    · rw [lowerDistance, upperDistance, div_le_div_iff_of_pos_right scale, Nat.cast_le]
      omega
    · rw [lowerDistance, upperDistance, div_left_inj' scale.ne', Nat.cast_inj]
      omega
  · rename_i up
    refine .of_neighbours (sub_nonneg.mp above) (sub_nonneg.mp below) (.inr rfl) ?_ le_rfl ?_
    · rw [lowerDistance, upperDistance, div_le_div_iff_of_pos_right scale, Nat.cast_le]
      omega
    · rw [lowerDistance, upperDistance, div_left_inj' scale.ne', Nat.cast_inj]
      omega

namespace Magnitude

theorem size_eq (m : Magnitude) : m.size = unitsAt m.rank / unitsPerOne := rfl

@[simp] theorem significand_mod_two (m : Magnitude) : m.significand % 2 = m.rank % 2 := by
  have le : m.exponent * binade ≤ m.rank :=
    Nat.le_trans (Nat.mul_le_mul_right _ (Nat.sub_le _ _)) (Nat.div_mul_le_self _ _)
  unfold significand
  rw [binade_eq] at *
  omega

theorem isNearest_iff (m : Magnitude) (exact : ℚ) :
    m.IsNearest exact ↔ IsNearestRank m.rank (exact * unitsPerOne) := by
  have one := unitsPerOne_pos
  have distance (rank : ℕ) : |exact - unitsAt rank / unitsPerOne| =
      |exact * unitsPerOne - unitsAt rank| / unitsPerOne := by
    have scaled : exact * unitsPerOne - unitsAt rank =
        (exact - unitsAt rank / unitsPerOne) * unitsPerOne := by
      rw [sub_mul, div_mul_cancel₀ _ one.ne']
    rw [scaled, abs_mul, abs_of_pos one, mul_div_cancel_right₀ _ one.ne']
  have onScale (rank : ℕ) : OnScale (unitsAt rank / unitsPerOne) :=
    (onScale_iff _).mpr ⟨rank, rfl⟩
  constructor
  · rintro ⟨nearest, even⟩
    constructor
    · intro other
      have near := nearest _ (onScale other)
      rwa [size_eq, distance, distance, div_le_div_iff_of_pos_right one] at near
    · intro other different same
      rw [← significand_mod_two]
      refine even _ (onScale other) ?_ ?_
      · rw [size_eq, ne_eq, div_left_inj' one.ne', Nat.cast_inj]
        exact fun equal => different (unitsAt_strictMono.injective equal)
      · rw [size_eq, distance, distance, same]
  · rintro ⟨nearest, even⟩
    constructor
    · intro size isSize
      obtain ⟨other, rfl⟩ := (onScale_iff size).mp isSize
      rw [size_eq, distance, distance, div_le_div_iff_of_pos_right one]
      exact nearest other
    · intro size isSize different same
      obtain ⟨other, rfl⟩ := (onScale_iff size).mp isSize
      rw [size_eq, distance, distance, div_left_inj' one.ne'] at same
      rw [significand_mod_two]
      exact even other (fun equal => different (by rw [equal, size_eq])) same

theorem IsNearest.of_between {m : Magnitude} {exact between : ℚ} (isNearest : m.IsNearest exact)
    (inside : |exact - between| + |between - m.size| = |exact - m.size|) :
    m.IsNearest between := by
  obtain ⟨nearest, even⟩ := isNearest
  have step (size : ℚ) : |exact - size| ≤ |exact - between| + |between - size| :=
    abs_sub_le exact between size
  constructor
  · intro size isSize
    have := nearest size isSize
    have := step size
    linarith
  · intro size isSize different same
    refine even size isSize different (le_antisymm ?_ (nearest size isSize))
    have := step size
    linarith

theorem isNearest_size (m : Magnitude) : m.IsNearest m.size := by
  constructor
  · intro size _
    rw [sub_self, abs_zero]
    exact abs_nonneg _
  · intro size _ different same
    rw [sub_self, abs_zero, abs_eq_zero, sub_eq_zero] at same
    exact absurd same.symm different

/-- The exact sizes with a nearest magnitude have no gaps. -/
theorem IsNearest.convex {m : Magnitude} {low between high : ℚ} (lowest : m.IsNearest low)
    (highest : m.IsNearest high) (le : low ≤ between) (le' : between ≤ high) :
    m.IsNearest between := by
  rcases le_total between m.size with below | above
  · apply lowest.of_between
    rw [abs_of_nonpos (by linarith), abs_of_nonpos (by linarith), abs_of_nonpos (by linarith)]
    ring
  · apply highest.of_between
    rw [abs_of_nonneg (by linarith), abs_of_nonneg (by linarith), abs_of_nonneg (by linarith)]
    ring

end Magnitude

theorem Decimal.isNearestRank (d : Decimal) :
    IsNearestRank (nearestRank (d.digits * unitsPerOne) (Nat.pow 10 d.places))
      (d.value * unitsPerOne) := by
  have positive : 0 < Nat.pow 10 d.places := Nat.pow_pos (by decide)
  have rounded := isNearestRank_nearestRank (d.digits * unitsPerOne) positive
  have isUnits : ((d.digits * unitsPerOne : ℕ) / (Nat.pow 10 d.places : ℕ) : ℚ) =
      d.value * unitsPerOne := by
    rw [value, Nat.pow_eq]
    push_cast
    ring
  rwa [isUnits] at rounded

/-- Rounding a decimal finds the nearest magnitude, if the decimal has one. -/
theorem Decimal.toNumber_eq_iff (d : Decimal) (m : Magnitude) :
    d.toNumber = .finite .positive m ↔ m.IsNearest d.value := by
  have rounded := d.isNearestRank
  rw [Magnitude.isNearest_iff]
  have result : d.toNumber = .finite .positive m ↔
      nearestRank (d.digits * unitsPerOne) (Nat.pow 10 d.places) = m.rank := by
    rw [toNumber, Number.round]
    split
    · simp only [Number.finite.injEq, true_and]
      rw [Magnitude.mk.injEq]
    · rename_i past
      exact iff_of_false nofun fun same => past (same ▸ m.rank_lt)
  rw [result]
  exact ⟨fun same => same ▸ rounded, fun isNearest => rounded.unique isNearest⟩

end Reckoner
