import Reckoner.Number.Shortest
import Reckoner.Proofs.Number.Nearest

/-! # Numbers that are read back

The search for the shortest decimal ends on a grid that has every magnitude among its points, and
before that it only takes points that round back, so the decimal that it finds always does. It
leaves a grid only if no point of the grid rounds back at all: if one did, then so would the
magnitude's neighbour on its side.
-/

namespace Reckoner

namespace Magnitude

/-- The power of ten that is the step of a grid. -/
def gridExponent (index : ℕ) : ℤ := index - (1074 : ℕ)

@[simp] theorem gridExponent_succ (index : ℕ) :
    gridExponent (index + 1) = gridExponent index + 1 := by
  unfold gridExponent
  omega

@[simp] theorem value_gridPoint (index count : ℕ) :
    (gridPoint index count).value = count * 10 ^ gridExponent index := by
  unfold Decimal.value gridPoint gridExponent
  generalize 1074 = finest
  rcases Nat.le_total index finest with fine | coarse
  · obtain ⟨places, rfl⟩ := Nat.exists_eq_add_of_le fine
    have exponent : (index : ℤ) - (index + places : ℕ) = -places := by omega
    rw [exponent, zpow_neg, zpow_natCast, Nat.sub_eq_zero_of_le fine, Nat.add_sub_cancel_left]
    simp [div_eq_mul_inv]
  · obtain ⟨zeros, rfl⟩ := Nat.exists_eq_add_of_le coarse
    have exponent : ((finest + zeros : ℕ) : ℤ) - finest = zeros := by omega
    rw [exponent, zpow_natCast, Nat.sub_eq_zero_of_le coarse, Nat.add_sub_cancel_left]
    simp

@[simp] theorem digits_gridPoint (index count : ℕ) :
    (gridPoint index count).digits = count * 10 ^ (index - 1074) := by
  rw [gridPoint, Nat.pow_eq]

theorem gridPoint_whole_or_count (index count : ℕ) :
    (gridPoint index count).places = 0 ∨ (gridPoint index count).digits = count := by
  rw [digits_gridPoint]
  unfold gridPoint
  generalize 1074 = finest
  rcases Nat.le_total index finest with fine | coarse
  · exact .inr (by rw [Nat.sub_eq_zero_of_le fine, pow_zero, mul_one])
  · exact .inl (Nat.sub_eq_zero_of_le coarse)

theorem size_eq_gridPoint (m : Magnitude) : m.size = (gridPoint 0 m.decimalSteps).value := by
  rw [value_gridPoint]
  unfold size decimalSteps unitsPerOne gridExponent
  -- That a unit has as many binary places as a step has decimal ones is all that counts.
  generalize 1074 = places
  have tens : (10 : ℚ) ^ places = 2 ^ places * 5 ^ places := by
    rw [← mul_pow]
    norm_num
  rw [Nat.cast_zero, zero_sub, zpow_neg, zpow_natCast, tens, Nat.pow_eq, Nat.pow_eq]
  push_cast
  field_simp

theorem step_pos (index : ℕ) : (0 : ℚ) < 10 ^ gridExponent index :=
  zpow_pos (by norm_num) _

theorem gridPoint_le_gridPoint (index : ℕ) {count count' : ℕ} (le : count ≤ count') :
    (gridPoint index count).value ≤ (gridPoint index count').value := by
  rw [value_gridPoint, value_gridPoint]
  exact mul_le_mul_of_nonneg_right (Nat.cast_le.mpr le) (step_pos index).le

theorem value_gridPoint_finer (index zeros count : ℕ) :
    (gridPoint (index + zeros) count).value = (gridPoint index (count * 10 ^ zeros)).value := by
  have exponent : gridExponent (index + zeros) = zeros + gridExponent index := by
    unfold gridExponent
    omega
  rw [value_gridPoint, value_gridPoint, exponent, zpow_add₀ (by norm_num), zpow_natCast]
  push_cast
  ring

theorem exists_gridPoint_eq {index : ℕ} {exponent : ℤ} (fine : gridExponent index ≤ exponent)
    (digits : ℕ) : ∃ count, (digits * 10 ^ exponent : ℚ) = (gridPoint index count).value := by
  obtain ⟨zeros, isZeros⟩ := Int.eq_ofNat_of_zero_le (Int.sub_nonneg.mpr fine)
  have exponent_eq : exponent = gridExponent (index + zeros) := by
    unfold gridExponent at *
    omega
  refine ⟨digits * 10 ^ zeros, ?_⟩
  rw [exponent_eq, ← value_gridPoint, value_gridPoint_finer]

theorem size_between (m : Magnitude) (index : ℕ) :
    (gridPoint index (m.decimalSteps / 10 ^ index)).value ≤ m.size ∧
      m.size ≤ (gridPoint index (m.decimalSteps / 10 ^ index + 1)).value := by
  have onFinest (count : ℕ) := value_gridPoint_finer 0 index count
  rw [Nat.zero_add] at onFinest
  rw [size_eq_gridPoint, onFinest, onFinest]
  have lower := Nat.div_mul_le_self m.decimalSteps (10 ^ index)
  have upper := Nat.lt_mul_div_succ m.decimalSteps (show 0 < 10 ^ index by positivity)
  rw [Nat.mul_comm] at upper
  exact ⟨gridPoint_le_gridPoint 0 lower, gridPoint_le_gridPoint 0 upper.le⟩

@[simp] theorem isNearestTo_iff (m : Magnitude) (d : Decimal) :
    m.isNearestTo d = true ↔ m.IsNearest d.value := by
  rw [isNearestTo, beq_iff_eq, Decimal.toNumber_eq_iff]

theorem choose?_eq_some {willDo : Decimal → Bool} {lower upper d : Decimal} {lowerIsNearer : Bool}
    (chosen : choose? willDo lower upper lowerIsNearer = some d) :
    (d = lower ∨ d = upper) ∧ willDo d = true := by
  unfold choose? at chosen
  split at chosen
  · rename_i lowerDoes upperDoes
    split at chosen
    · obtain rfl := Option.some.inj chosen
      exact ⟨.inl rfl, lowerDoes⟩
    · obtain rfl := Option.some.inj chosen
      exact ⟨.inr rfl, upperDoes⟩
  · rename_i lowerDoes _
    obtain rfl := Option.some.inj chosen
    exact ⟨.inl rfl, lowerDoes⟩
  · rename_i _ upperDoes
    obtain rfl := Option.some.inj chosen
    exact ⟨.inr rfl, upperDoes⟩
  · cases chosen

theorem choose?_eq_none {willDo : Decimal → Bool} {lower upper : Decimal} {lowerIsNearer : Bool}
    (none : choose? willDo lower upper lowerIsNearer = none) :
    willDo lower = false ∧ willDo upper = false := by
  unfold choose? at none
  split at none
  · cases none
  · cases none
  · cases none
  · rename_i lowerDoesNot upperDoesNot
    exact ⟨lowerDoesNot, upperDoesNot⟩

theorem neighbour?_eq_some {m : Magnitude} {index : ℕ} {d : Decimal}
    (found : m.neighbour? index = some d) :
    m.IsNearest d.value ∧ ∃ count ≤ m.decimalSteps / 10 ^ index + 1, d = gridPoint index count := by
  obtain ⟨isNeighbour, nearest⟩ := choose?_eq_some found
  refine ⟨(m.isNearestTo_iff d).mp nearest, ?_⟩
  rcases isNeighbour with lower | upper
  · exact ⟨_, Nat.le_succ _, lower⟩
  · exact ⟨_, Nat.le_refl _, upper⟩

/-- If no neighbour is taken then no point of the grid rounds back. -/
theorem neighbour?_eq_none {m : Magnitude} {index : ℕ} (notFound : m.neighbour? index = none)
    (count : ℕ) : ¬ m.IsNearest (gridPoint index count).value := by
  intro nearest
  obtain ⟨noLower, noUpper⟩ := choose?_eq_none notFound
  obtain ⟨lower, upper⟩ := m.size_between index
  have self := m.isNearest_size
  rw [Bool.eq_false_iff, ne_eq, isNearestTo_iff] at noLower noUpper
  rcases Nat.lt_or_ge (m.decimalSteps / 10 ^ index) count with above | below
  · exact noUpper (self.convex nearest upper (gridPoint_le_gridPoint index above))
  · exact noLower (nearest.convex self (gridPoint_le_gridPoint index below) lower)

/-- The search ends on some grid, and all coarser ones it has left. -/
theorem exists_refined (find? : ℕ → Option Decimal) (finest : Decimal) (start : ℕ) :
    ∃ index ≤ start, (∀ coarser, index < coarser → coarser ≤ start → find? coarser = none) ∧
      (index = 0 ∧ refine find? finest start = finest ∨
        0 < index ∧ find? index = some (refine find? finest start)) := by
  induction start with
  | zero => exact ⟨0, Nat.le_refl 0, fun coarser less le => absurd less (Nat.not_lt.mpr le),
      .inl ⟨rfl, rfl⟩⟩
  | succ start ih =>
      cases found : find? (start + 1) with
      | some decimal =>
          refine ⟨start + 1, Nat.le_refl _, fun coarser less le =>
            absurd less (Nat.not_lt.mpr le), .inr ⟨Nat.succ_pos start, ?_⟩⟩
          rw [refine, found]
      | none =>
          have goesOn : refine find? finest (start + 1) = refine find? finest start := by
            rw [refine, found]
          obtain ⟨index, le, left, ends⟩ := ih
          refine ⟨index, Nat.le_succ_of_le le, fun coarser less upTo => ?_, goesOn ▸ ends⟩
          rcases Nat.le_succ_iff.mp upTo with within | rfl
          · exact left coarser less within
          · exact found

theorem isNearest_shortest (m : Magnitude) : m.IsNearest m.shortest.value := by
  -- On every grid a point is only taken if it rounds back.
  obtain ⟨index, -, -, ends⟩ :=
    exists_refined m.neighbour? (gridPoint 0 m.decimalSteps) m.coarseIndex
  rcases ends with ⟨-, isFinest⟩ | ⟨-, found⟩
  · rw [shortest, isFinest, ← size_eq_gridPoint]
    exact m.isNearest_size
  · exact (neighbour?_eq_some found).1

@[simp] theorem toNumber_shortest (m : Magnitude) : m.shortest.toNumber = .finite .positive m :=
  (Decimal.toNumber_eq_iff _ m).mpr m.isNearest_shortest

end Magnitude

end Reckoner
