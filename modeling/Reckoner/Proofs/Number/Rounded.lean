import Reckoner.Proofs.Number.Nearest

/-! # Sizes of any length

Every exact size is rounded to one number. Sizes that are nearer to a magnitude than to anything
that could come behind the last one get that magnitude, and sizes beyond get infinity. A greater
size is never rounded to a lesser number.
-/

namespace Reckoner

/-- Half-way between the greatest magnitude and the size that would come next, `2 ^ 1024`. -/
def overflowSize : ℚ := 2 ^ 1024 - 2 ^ 970

/-- The number that an exact size is rounded to. -/
inductive Number.Rounds (exact : ℚ) : Number → Prop where
  | finite {m : Magnitude} : m.IsNearest exact → Rounds exact (.finite .positive m)
  | overflow : overflowSize ≤ exact → Rounds exact (.infinite .positive)

theorem upper_nearer_iff {low high exact : ℚ} (less : low < high) :
    |exact - high| ≤ |exact - low| ↔ low + high ≤ 2 * exact := by
  rw [← sq_le_sq]
  constructor
  · intro nearer
    nlinarith
  · intro above
    nlinarith

theorem lower_nearer_iff {low high exact : ℚ} (less : low < high) :
    |exact - low| ≤ |exact - high| ↔ 2 * exact ≤ low + high := by
  rw [← sq_le_sq]
  constructor
  · intro nearer
    nlinarith
  · intro below
    nlinarith

namespace IsNearestRank

variable {rank rank' : ℕ} {units units' : ℚ}

theorem mono (isNearest : IsNearestRank rank units) (isNearest' : IsNearestRank rank' units')
    (le : units ≤ units') : rank ≤ rank' := by
  by_contra less
  have order := unitsAt_lt (Nat.lt_of_not_le less)
  have lower := (upper_nearer_iff order).mp (isNearest.nearest rank')
  have upper := (lower_nearer_iff order).mp (isNearest'.nearest rank)
  -- Both are the point half-way between the two ranks, which has only one nearest rank.
  obtain rfl : units = units' := by linarith
  exact less (isNearest.unique isNearest').le

/-- Whether the nearest rank is past an odd one is decided half-way to the next. -/
theorem past_odd_iff (isNearest : IsNearestRank rank units) {last : ℕ} (odd : last % 2 = 1) :
    last < rank ↔ (unitsAt last + unitsAt (last + 1) : ℚ) ≤ 2 * units := by
  constructor
  · intro past
    have nearer := (upper_nearer_iff (unitsAt_lt past)).mp (isNearest.nearest last)
    have next := unitsAt_le (Nat.succ_le_of_lt past)
    linarith
  · intro above
    by_contra notPast
    have within : rank ≤ last := Nat.le_of_not_lt notPast
    have order := unitsAt_lt (Nat.lt_succ_of_le within)
    have nearer := (lower_nearer_iff order).mp (isNearest.nearest (last + 1))
    have highest := unitsAt_le within
    -- The exact units lie half-way between the odd rank and the next, and the even one is taken.
    have same : (unitsAt rank : ℚ) = unitsAt last := by linarith
    obtain rfl : rank = last := unitsAt_strictMono.injective (Nat.cast_injective same)
    have tie : |units - unitsAt (rank + 1)| = |units - unitsAt rank| :=
      le_antisymm ((upper_nearer_iff order).mpr above) (isNearest.nearest _)
    have even := isNearest.even (rank + 1) (by omega) tie
    omega

end IsNearestRank

theorem unitsAt_around_top (exponent : ℕ) :
    (unitsAt (exponent * binade + (2 * binade - 1)) +
        unitsAt (exponent * binade + 2 * binade) : ℚ) =
      (2 ^ 54 - 1) * 2 ^ exponent := by
  have binade_eq := binade_eq
  rw [unitsAt_grid (by omega) (by omega), unitsAt_grid (by omega) (by omega), binade_eq]
  push_cast
  ring

theorem unitsAt_around_last :
    (unitsAt (magnitudeCount - 1) + unitsAt (magnitudeCount - 1 + 1) : ℚ) =
      2 * (overflowSize * unitsPerOne) := by
  have binade_eq := binade_eq
  have isLast : magnitudeCount - 1 = 2045 * binade + (2 * binade - 1) := by
    unfold magnitudeCount
    omega
  have isNext : magnitudeCount - 1 + 1 = 2045 * binade + 2 * binade := by
    unfold magnitudeCount
    omega
  have isUnit : (unitsPerOne : ℚ) = 2 ^ 1074 := by
    unfold unitsPerOne
    generalize 1074 = places
    exact Nat.cast_pow 2 places
  have exponent : (2 : ℚ) ^ 2045 = 2 * (2 ^ 970 * 2 ^ 1074) := by
    rw [← pow_add, ← pow_succ']
  have bound : (2 : ℚ) ^ 1024 = 2 ^ 54 * 2 ^ 970 := by
    rw [← pow_add]
  rw [isNext, isLast, unitsAt_around_top, exponent, overflowSize, bound, isUnit]
  generalize (2 : ℚ) ^ 970 = step
  generalize (2 : ℚ) ^ 1074 = one
  ring

theorem IsNearestRank.magnitudeCount_le_iff {rank : ℕ} {exact : ℚ}
    (isNearest : IsNearestRank rank (exact * unitsPerOne)) :
    magnitudeCount ≤ rank ↔ overflowSize ≤ exact := by
  have odd : (magnitudeCount - 1) % 2 = 1 := by decide
  have past := isNearest.past_odd_iff odd
  rw [unitsAt_around_last, mul_le_mul_iff_of_pos_left (by norm_num),
    mul_le_mul_iff_of_pos_right unitsPerOne_pos] at past
  have positive : 0 < magnitudeCount := by decide
  rw [← past]
  omega

theorem Magnitude.IsNearest.unique {m m' : Magnitude} {exact : ℚ} (isNearest : m.IsNearest exact)
    (isNearest' : m'.IsNearest exact) : m = m' := by
  have sameRank := ((m.isNearest_iff exact).mp isNearest).unique
    ((m'.isNearest_iff exact).mp isNearest')
  cases m
  cases m'
  simpa using sameRank

theorem Magnitude.IsNearest.lt_overflowSize {m : Magnitude} {exact : ℚ}
    (isNearest : m.IsNearest exact) : exact < overflowSize := by
  have past := ((m.isNearest_iff exact).mp isNearest).magnitudeCount_le_iff
  have within := m.rank_lt
  by_contra beyond
  exact absurd (past.mpr (le_of_not_gt beyond)) (Nat.not_le.mpr within)

namespace Number

theorem rounds_toNumber (d : Decimal) : Rounds d.value d.toNumber := by
  have rounded := d.isNearestRank
  by_cases within : nearestRank (d.digits * unitsPerOne) (Nat.pow 10 d.places) < magnitudeCount
  · have isFinite : d.toNumber = .finite .positive ⟨_, within⟩ := dif_pos within
    rw [isFinite]
    exact .finite ((Decimal.toNumber_eq_iff d _).mp isFinite)
  · have isInfinite : d.toNumber = .infinite .positive := dif_neg within
    rw [isInfinite]
    exact .overflow (rounded.magnitudeCount_le_iff.mp (Nat.le_of_not_lt within))

namespace Rounds

variable {exact exact' : ℚ} {n n' : Number}

theorem not_negative (rounds : Rounds exact n) :
    n = .infinite .positive ∨ ∃ m, n = .finite .positive m := by
  cases rounds with
  | finite => exact .inr ⟨_, rfl⟩
  | overflow => exact .inl rfl

theorem lessOrEqual (rounds : Rounds exact n) (rounds' : Rounds exact' n')
    (le : exact ≤ exact') : n.lessOrEqual n' = true := by
  cases rounds with
  | @finite m isNearest =>
      cases rounds' with
      | @finite m' isNearest' =>
          have order : m.rank ≤ m'.rank :=
            ((m.isNearest_iff exact).mp isNearest).mono ((m'.isNearest_iff exact').mp isNearest')
              (mul_le_mul_of_nonneg_right le unitsPerOne_pos.le)
          simpa [Number.lessOrEqual, compareBy, place?, Sign.apply] using order
      | overflow =>
          simpa [Number.lessOrEqual, compareBy, place?, Sign.apply] using m.rank_lt.le
  | overflow beyond =>
      cases rounds' with
      | finite isNearest' =>
          exact absurd (beyond.trans le) (not_le_of_gt isNearest'.lt_overflowSize)
      | overflow => simp [Number.lessOrEqual, compareBy, place?]

theorem unique (rounds : Rounds exact n) (rounds' : Rounds exact n') : n = n' := by
  cases rounds with
  | finite isNearest =>
      cases rounds' with
      | finite isNearest' => rw [isNearest.unique isNearest']
      | overflow beyond => exact absurd beyond (not_le_of_gt isNearest.lt_overflowSize)
  | overflow beyond =>
      cases rounds' with
      | finite isNearest' => exact absurd beyond (not_le_of_gt isNearest'.lt_overflowSize)
      | overflow => rfl

end Rounds

end Number

end Reckoner
