import Reckoner.Proofs.Number.Exact

/-! # Fewest digits

The point that the search for the shortest decimal takes cannot be written with fewer digits. On
the next coarser grid no point rounds to the magnitude. Decimals of that grid and of coarser ones
are ruled out by this, and any finer decimal keeps between the same two points of that grid as the
point that was taken, so it has at least as many digits.
-/

namespace Reckoner

theorem length_toDigits_le {count other : ℕ} (le : 10 * (count / 10) ≤ other) :
    (Nat.toDigits 10 count).length ≤ (Nat.toDigits 10 other).length := by
  rw [Nat.length_toDigits_le_iff (by decide) Nat.length_toDigits_pos]
  have isLess : other < 10 ^ (Nat.toDigits 10 other).length :=
    (Nat.length_toDigits_le_iff (by decide) Nat.length_toDigits_pos).mp (Nat.le_refl _)
  obtain ⟨places, isLength⟩ :=
    Nat.exists_eq_succ_of_ne_zero (Nat.ne_of_gt (@Nat.length_toDigits_pos 10 other))
  rw [isLength, pow_succ] at isLess ⊢
  -- Tens below a power of ten stay below it when ones are put to them.
  omega

namespace Magnitude

theorem eq_zero_of_size_eq_zero {m : Magnitude} (noSize : m.size = 0) : m = .zero := by
  rw [size_eq, div_eq_zero_iff, or_iff_left unitsPerOne_pos.ne', Nat.cast_eq_zero] at noSize
  have noRank : m.rank = 0 := unitsAt_strictMono.injective (noSize.trans (by decide))
  obtain ⟨rank, rank_lt⟩ := m
  subst noRank
  rfl

theorem not_isNearest_zero {m : Magnitude} (nonzero : m ≠ .zero) : ¬ m.IsNearest 0 := by
  intro isNearest
  have onScale : OnScale 0 := ⟨0, 0, by decide, by rw [Nat.zero_mul, Nat.cast_zero, zero_div]⟩
  have near := isNearest.nearest 0 onScale
  rw [sub_self, abs_zero, zero_sub, abs_neg, abs_nonpos_iff] at near
  exact nonzero (eq_zero_of_size_eq_zero near)

theorem decimalSteps_lt (m : Magnitude) : m.decimalSteps < 10 ^ m.coarseIndex := by
  have less : m.decimalSteps < 2 ^ (m.decimalSteps.log2 + 1) := Nat.lt_log2_self
  refine less.trans_le ?_
  unfold coarseIndex
  generalize m.decimalSteps.log2 + 1 = bits
  have enough : 28 * bits ≤ 93 * (bits * 28 / 93 + 1) := by omega
  apply (Nat.pow_le_pow_iff_left (show 93 ≠ 0 by decide)).mp
  calc (2 ^ bits) ^ 93 = (2 ^ 93) ^ bits := by rw [← pow_mul, ← pow_mul, Nat.mul_comm]
    _ ≤ (10 ^ 28) ^ bits := Nat.pow_le_pow_left (by norm_num) bits
    _ = 10 ^ (28 * bits) := by rw [← pow_mul]
    _ ≤ 10 ^ (93 * (bits * 28 / 93 + 1)) := Nat.pow_le_pow_right (by decide) enough
    _ = (10 ^ (bits * 28 / 93 + 1)) ^ 93 := by rw [← pow_mul, Nat.mul_comm]

/-- The shortest decimal is a point of a grid, and either a single step of the grid or the next
    coarser grid has no point that will do. -/
structure EndsAt (m : Magnitude) (index count : ℕ) : Prop where
  shortest_eq : m.shortest = gridPoint index count
  coarser : count = 1 ∨ ∀ other, ¬ m.IsNearest (gridPoint (index + 1) other).value

theorem exists_endsAt {m : Magnitude} (nonzero : m ≠ .zero) :
    ∃ index count, m.EndsAt index count := by
  obtain ⟨index, le, left, ends⟩ :=
    exists_refined m.neighbour? (gridPoint 0 m.decimalSteps) m.coarseIndex
  rcases Nat.lt_or_eq_of_le le with finer | rfl
  · have coarser := neighbour?_eq_none (left (index + 1) (Nat.lt_succ_self index) finer)
    rcases ends with ⟨rfl, isFinest⟩ | ⟨-, found⟩
    · exact ⟨0, m.decimalSteps, isFinest, .inr coarser⟩
    · obtain ⟨-, count, -, isPoint⟩ := neighbour?_eq_some found
      exact ⟨index, count, isPoint, .inr coarser⟩
  · -- On the first grid the neighbours are no step, which rounds to zero, and a single one.
    rcases ends with ⟨noGrid, -⟩ | ⟨-, found⟩
    · exact absurd noGrid (Nat.succ_ne_zero _)
    · obtain ⟨isNearest, count, atMost, isPoint⟩ := neighbour?_eq_some found
      rw [Nat.div_eq_of_lt m.decimalSteps_lt] at atMost
      refine ⟨m.coarseIndex, count, isPoint, .inl ?_⟩
      have notZero : count ≠ 0 := by
        rintro rfl
        rw [isPoint, value_gridPoint, Nat.cast_zero, zero_mul] at isNearest
        exact not_isNearest_zero nonzero isNearest
      omega

namespace EndsAt

variable {m : Magnitude} {index count : ℕ}

theorem isNearest (ends : m.EndsAt index count) : m.IsNearest (gridPoint index count).value :=
  ends.shortest_eq ▸ m.isNearest_shortest

theorem count_mod_ten (ends : m.EndsAt index count) : count % 10 ≠ 0 := by
  intro spare
  rcases ends.coarser with rfl | coarser
  · cases spare
  · have tens : count = count / 10 * 10 ^ 1 := by omega
    have isNearest := ends.isNearest
    rw [tens, ← value_gridPoint_finer] at isNearest
    exact coarser _ isNearest

theorem count_pos (ends : m.EndsAt index count) : 0 < count :=
  Nat.pos_of_ne_zero fun zero => ends.count_mod_ten (by rw [zero])

/-- Any other decimal that rounds to the magnitude has as many digits. -/
theorem tens_le (ends : m.EndsAt index count) {other : ℕ} {exponent : ℤ}
    (isNearest : m.IsNearest (other * 10 ^ exponent)) : 10 * (count / 10) ≤ other := by
  rcases ends.coarser with rfl | coarser
  · exact Nat.zero_le other
  by_contra less
  rcases lt_or_ge (gridExponent index) exponent with coarse | fine
  · -- The decimal is a point of the next coarser grid.
    have fineEnough : gridExponent (index + 1) ≤ exponent := by
      rw [gridExponent_succ]
      exact coarse
    obtain ⟨point, onGrid⟩ := exists_gridPoint_eq fineEnough other
    exact coarser point (onGrid ▸ isNearest)
  · -- The tens of the point lie between the decimal and the point.
    have below : (other * 10 ^ exponent : ℚ) ≤ (gridPoint index (count / 10 * 10 ^ 1)).value := by
      rw [value_gridPoint]
      have le : (other : ℚ) ≤ (count / 10 * 10 ^ 1 : ℕ) := Nat.cast_le.mpr (by omega)
      exact mul_le_mul le (zpow_le_zpow_right₀ (by norm_num) fine) (zpow_pos (by norm_num) _).le
        (Nat.cast_nonneg _)
    have above : (gridPoint index (count / 10 * 10 ^ 1)).value ≤ (gridPoint index count).value :=
      gridPoint_le_gridPoint index (by omega)
    have tens := isNearest.convex ends.isNearest below above
    rw [← value_gridPoint_finer] at tens
    exact coarser _ tens

end EndsAt

end Magnitude

end Reckoner
