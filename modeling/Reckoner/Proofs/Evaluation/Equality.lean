import Reckoner.Proofs.Evaluation.Typing
import Reckoner.Proofs.Number.Distinct

/-! # Equal values

Values are equal when they are of one type and are printed alike, except that the number without
a value equals nothing. Equality is therefore as good as an identity of what can be seen of a
value: its type, what is printed for it and whether it counts as true.
-/

namespace Reckoner

namespace Value

theorem equals_iff (a b : Value) :
    a.equals b = true ↔
      a.type = b.type ∧ a ≠ .number .nan ∧ b ≠ .number .nan ∧ a.display = b.display := by
  -- One type at a time. Of the truth values, `nil` and the strings the printed text is all that
  -- there is, and for the numbers it is their place.
  cases a with
  | number n =>
      cases b with
      | number n' => simpa [equals, type, display] using n.equals_iff n'
      | text | bool | nil => simp [equals, type]
  | text s =>
      cases b with
      | text s' => simp [equals, type, display]
      | number | bool | nil => simp [equals, type]
  | bool c =>
      cases b with
      | bool c' => cases c <;> cases c' <;> simp [equals, type, display]
      | number | text | nil => simp [equals, type]
  | nil =>
      cases b with
      | nil => simp [equals, type]
      | number | text | bool => simp [equals, type]

variable {a b : Value}

theorem countsAsTrue_eq (sameType : a.type = b.type) (sameText : a.display = b.display) :
    a.countsAsTrue = b.countsAsTrue := by
  cases a with
  | number n => cases b <;> first | rfl | cases sameType
  | text s => cases b <;> first | rfl | cases sameType
  | bool c =>
      cases b with
      | bool c' => cases c <;> cases c' <;> first | rfl | simp [display] at sameText
      | number | text | nil => cases sameType
  | nil => cases b <;> first | rfl | cases sameType

/-- Values of one type, none of them the number without a value, are equal exactly if they are
    printed alike. Values of different types are never equal, and the number without a value
    equals nothing. So equality is symmetric and transitive, all values but one equal themselves,
    and equal values are printed alike and count as the same truth. -/
theorem equality_agrees_with_display (a b : Value) :
    (a.type = b.type → a ≠ .number .nan → b ≠ .number .nan →
        (a.equals b = true ↔ a.display = b.display)) ∧
      (a.type ≠ b.type → a.equals b = false) ∧
      ((Value.number .nan).equals a = false ∧ a.equals (.number .nan) = false) ∧
      a.equals b = b.equals a ∧
      (∀ c : Value, a.equals b = true → b.equals c = true → a.equals c = true) ∧
      (a.equals a = true ↔ a ≠ .number .nan) ∧
      (a.equals b = true → a.display = b.display ∧ a.countsAsTrue = b.countsAsTrue) := by
  refine ⟨?_, ?_, ⟨?_, ?_⟩, ?_, ?_, ?_, ?_⟩
  · intro sameType isValue isValue'
    simp [equals_iff, sameType, isValue, isValue']
  · intro otherType
    simp [← Bool.not_eq_true, equals_iff, otherType]
  · simp [← Bool.not_eq_true, equals_iff]
  · simp [← Bool.not_eq_true, equals_iff]
  · rw [Bool.eq_iff_iff, equals_iff, equals_iff]
    grind
  · intro c equal equal'
    obtain ⟨sameType, isValue, -, sameText⟩ := (equals_iff a b).mp equal
    obtain ⟨sameType', -, isValue', sameText'⟩ := (equals_iff b c).mp equal'
    exact (equals_iff a c).mpr
      ⟨sameType.trans sameType', isValue, isValue', sameText.trans sameText'⟩
  · simp [equals_iff]
  · intro equal
    obtain ⟨sameType, -, -, sameText⟩ := (equals_iff a b).mp equal
    exact ⟨sameText, countsAsTrue_eq sameType sameText⟩

/-- The two zeros are equal and printed alike, a number and the string that shows it are not
    equal. -/
theorem equality_agrees_with_display_zeros :
    let zero (sign : Sign) : Value := .number (.finite sign .zero)
    (zero .positive).equals (zero .negative) = true ∧
      (zero .positive).equals (.text "0") = false := by
  intro zero
  have sameText : (zero .positive).display = (zero .negative).display := by
    simp [zero, display, Number.text]
  obtain ⟨equalIff, -⟩ := equality_agrees_with_display (zero .positive) (zero .negative)
  obtain ⟨-, unequal, -⟩ := equality_agrees_with_display (zero .positive) (.text "0")
  constructor
  · exact (equalIff rfl (by simp [zero]) (by simp [zero])).mpr sameText
  · exact unequal (by simp [zero, type])

end Value

end Reckoner
