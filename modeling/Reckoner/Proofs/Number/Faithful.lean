import Mathlib.Data.List.DropRight
import Reckoner.Proofs.Number.Fewest
import Reckoner.Proofs.Number.Written

/-! # Faithful texts

The text of a finite number is a plain decimal: digits, perhaps with a point between them, and no
zero to spare at either end. It rounds back to the number, and no decimal with fewer digits does.
-/

namespace Reckoner

theorem digitChar_ne_zero {digit : ℕ} (less : digit < 10) (nonzero : digit ≠ 0) :
    digit.digitChar ≠ '0' := by
  have digits : ∀ d < 10, d ≠ 0 → Nat.digitChar d ≠ '0' := by decide
  exact digits digit less nonzero

theorem toDigits_mul_pow {count : ℕ} (positive : 0 < count) (zeros : ℕ) :
    Nat.toDigits 10 (count * 10 ^ zeros) = Nat.toDigits 10 count ++ List.replicate zeros '0' := by
  induction zeros with
  | zero => simp
  | succ zeros ih =>
      have tens : 0 < count * 10 ^ zeros := by positivity
      have step := @Nat.toDigits_append_toDigits 10 _ 0 (by decide) tens (by decide)
      rw [ih, Nat.toDigits_zero, List.append_assoc, ← List.replicate_succ'] at step
      rw [step, pow_succ]
      congr 1
      ring

theorem head?_toDigits {count : ℕ} (positive : 0 < count) :
    (Nat.toDigits 10 count).head? ≠ some '0' := by
  induction count using Nat.strongRecOn with
  | ind count ih =>
      rcases Nat.lt_or_ge count 10 with less | large
      · rw [Nat.toDigits_of_lt_base less]
        exact fun same => digitChar_ne_zero less (Nat.ne_of_gt positive) (Option.some.inj same)
      · have tens := ih (count / 10) (by omega) (by omega)
        rw [Nat.toDigits_of_base_le (by decide) large, List.head?_append_of_ne_nil]
        · exact tens
        · exact Nat.toDigits_ne_nil

theorem getLast?_toDigits {count : ℕ} (noZero : count % 10 ≠ 0) :
    (Nat.toDigits 10 count).getLast? ≠ some '0' := by
  have ones := digitChar_ne_zero (Nat.mod_lt count (by decide)) noZero
  rcases Nat.lt_or_ge count 10 with less | large
  · rw [Nat.toDigits_of_lt_base less]
    rw [Nat.mod_eq_of_lt less] at ones
    exact fun same => ones (Option.some.inj same)
  · rw [Nat.toDigits_of_base_le (by decide) large, List.getLast?_concat]
    exact fun same => ones (Option.some.inj same)

/-- No zero is in front, unless it is the only digit. -/
def NoSpareZero (digits : List Char) : Prop := digits = ['0'] ∨ digits.head? ≠ some '0'

/-- The text is a decimal of this value, without an exponent and without zeros that could be
    left out. -/
inductive PlainDecimal : List Char → ℚ → Prop where
  | whole {digits : List Char} : IsDigits digits → NoSpareZero digits →
      PlainDecimal digits (Nat.ofDigitChars 10 digits 0)
  | fraction {whole places : List Char} : IsDigits whole → NoSpareZero whole → IsDigits places →
      places.getLast? ≠ some '0' →
      PlainDecimal (whole ++ '.' :: places)
        (Nat.ofDigitChars 10 whole 0 + Nat.ofDigitChars 10 places 0 / 10 ^ places.length)

/-- The digits of a decimal text from the first to the last that is not zero. -/
def significantDigits (text : List Char) : List Char :=
  ((text.filter Char.isDigit).dropWhile fun c => c == '0').rdropWhile fun c => c == '0'

namespace Decimal

/-- A decimal has a plain text if it has no places, or if the last of them is needed. -/
theorem toText_plain {d : Decimal} (positive : 0 < d.digits)
    (needed : d.places = 0 ∨ d.digits % 10 ≠ 0) : PlainDecimal d.toText d.value := by
  rcases d.toText_cases with
    ⟨noPlaces, text, digits⟩ | ⟨whole, fraction, text, wholeDigits, places, parts, length⟩
  · have isValue : d.value = (Nat.ofDigitChars 10 (Nat.toDigits 10 d.digits) 0 : ℕ) := by
      rw [Nat.ofDigitChars_toDigits (by decide) (by decide), value, noPlaces, pow_zero, div_one]
    rw [text] at digits
    rw [text, isValue]
    exact .whole digits (.inr (head?_toDigits positive))
  · have isValue : d.value =
        Nat.ofDigitChars 10 whole 0 + Nat.ofDigitChars 10 fraction 0 / 10 ^ fraction.length := by
      rw [← value_append, parts, ofDigitChars_padded, length]
    have nonempty : fraction ≠ [] := places.1
    have hasPlaces : d.places ≠ 0 := by
      rw [← length]
      exact fun noLength => nonempty (List.eq_nil_of_length_eq_zero noLength)
    have last : fraction.getLast? ≠ some '0' := by
      have padded := congrArg List.getLast? parts
      rw [List.getLast?_append_of_ne_nil _ nonempty, Decimal.padded,
        List.getLast?_append_of_ne_nil _ Nat.toDigits_ne_nil] at padded
      rw [padded]
      exact getLast?_toDigits (needed.resolve_left hasPlaces)
    rw [text, isValue]
    refine .fraction wholeDigits ?_ places last
    have size := congrArg List.length parts
    simp only [Decimal.padded, List.length_append, List.length_replicate] at size
    rcases Nat.lt_or_ge d.places (Nat.toDigits 10 d.digits).length with long | short
    · -- The digits reach over the point, so none has been put in front.
      refine .inr ?_
      have noZeros : d.places + 1 - (Nat.toDigits 10 d.digits).length = 0 := by omega
      have digits := congrArg List.head? parts
      rw [List.head?_append_of_ne_nil _ wholeDigits.1, Decimal.padded, noZeros] at digits
      rw [digits]
      exact head?_toDigits positive
    · -- They do not, and a single zero stands before the point.
      obtain ⟨c, rfl⟩ := List.length_eq_one_iff.mp (show whole.length = 1 by omega)
      obtain ⟨zeros, isZeros⟩ := Nat.exists_eq_add_of_le short
      have oneMore : d.places + 1 - (Nat.toDigits 10 d.digits).length = zeros + 1 := by omega
      rw [Decimal.padded, oneMore, List.replicate_succ] at parts
      obtain ⟨rfl, -⟩ := List.cons.inj parts
      exact .inl rfl

theorem exists_filter_toText (d : Decimal) :
    ∃ zeros,
      d.toText.filter Char.isDigit = List.replicate zeros '0' ++ Nat.toDigits 10 d.digits := by
  rcases d.toText_cases with
    ⟨-, text, digits⟩ | ⟨whole, fraction, text, wholeDigits, places, parts, -⟩
  · rw [List.filter_eq_self.mpr digits.all_isDigit]
    exact ⟨0, text⟩
  · have noDigit : ¬ ('.' : Char).isDigit = true := by decide
    rw [text, List.filter_append, List.filter_cons_of_neg noDigit,
      List.filter_eq_self.mpr wholeDigits.all_isDigit, List.filter_eq_self.mpr places.all_isDigit,
      parts]
    exact ⟨_, rfl⟩

end Decimal

theorem dropWhile_zeros {digits : List Char} (head : digits.head? ≠ some '0') (zeros : ℕ) :
    (List.replicate zeros '0' ++ digits).dropWhile (fun c => c == '0') = digits := by
  rw [List.dropWhile_append_of_pos (by simp)]
  cases digits with
  | nil => rfl
  | cons c others =>
      apply List.dropWhile_cons_of_neg
      rw [beq_iff_eq]
      exact fun same => head (congrArg some same)

theorem rdropWhile_zeros {digits : List Char} (last : digits.getLast? ≠ some '0') (zeros : ℕ) :
    (digits ++ List.replicate zeros '0').rdropWhile (fun c => c == '0') = digits := by
  rw [List.getLast?_eq_head?_reverse] at last
  rw [List.rdropWhile, List.reverse_append, List.reverse_replicate, dropWhile_zeros last,
    List.reverse_reverse]

namespace Magnitude

theorem digits_gridPoint_pos (index : ℕ) {count : ℕ} (positive : 0 < count) :
    0 < (gridPoint index count).digits := by
  rw [digits_gridPoint]
  positivity

theorem significantDigits_gridPoint (index : ℕ) {count : ℕ} (needed : count % 10 ≠ 0) :
    significantDigits (gridPoint index count).toText = Nat.toDigits 10 count := by
  have positive : 0 < count := Nat.pos_of_ne_zero fun zero => needed (by rw [zero])
  have head := head?_toDigits (digits_gridPoint_pos index positive)
  obtain ⟨zeros, isFilter⟩ := (gridPoint index count).exists_filter_toText
  rw [significantDigits, isFilter, dropWhile_zeros head, digits_gridPoint,
    toDigits_mul_pow positive, rdropWhile_zeros (getLast?_toDigits needed)]

/-- The text is a plain decimal that rounds to the magnitude, and every other decimal that does
    has as many significant digits. -/
structure Faithful (m : Magnitude) (text : List Char) : Prop where
  nearest : ∃ value, PlainDecimal text value ∧ m.IsNearest value
  fewest : ∀ (count : ℕ) (exponent : ℤ), m.IsNearest (count * 10 ^ exponent) →
    (significantDigits text).length ≤ (Nat.toDigits 10 count).length

theorem faithful_shortest {m : Magnitude} (nonzero : m ≠ .zero) : m.Faithful m.shortest.toText := by
  obtain ⟨index, count, ends⟩ := exists_endsAt nonzero
  have needed := ends.count_mod_ten
  rw [ends.shortest_eq]
  constructor
  · have positive := digits_gridPoint_pos index ends.count_pos
    have noneToSpare : (gridPoint index count).places = 0 ∨
        (gridPoint index count).digits % 10 ≠ 0 := by
      rcases gridPoint_whole_or_count index count with whole | isCount
      · exact .inl whole
      · rw [isCount]
        exact .inr needed
    exact ⟨_, Decimal.toText_plain positive noneToSpare, ends.isNearest⟩
  · intro other exponent isNearest
    rw [significantDigits_gridPoint index needed]
    exact length_toDigits_le (ends.tens_le isNearest)

end Magnitude

/-- What the text of a number is to be. Only the finite numbers other than the zeros are written
    with digits of their own, and only negative ones with a sign. -/
inductive Number.Faithful : Number → String → Prop where
  | nan : Faithful .nan "NaN"
  | infinity : Faithful (.infinite .positive) "Infinity"
  | negativeInfinity : Faithful (.infinite .negative) "-Infinity"
  | zero {sign : Sign} : Faithful (.finite sign .zero) "0"
  | positive {m : Magnitude} {text : List Char} : m ≠ .zero → m.Faithful text →
      Faithful (.finite .positive m) (String.ofList text)
  | negative {m : Magnitude} {text : List Char} : m ≠ .zero → m.Faithful text →
      Faithful (.finite .negative m) (String.ofList ('-' :: text))

/-- Every number is written so that it can be told from its text, and with the fewest digits. -/
theorem Number.text_is_faithful (n : Number) : n.Faithful n.text := by
  cases n with
  | nan => exact .nan
  | infinite sign =>
      cases sign with
      | positive => exact .infinity
      | negative => exact .negativeInfinity
  | finite sign m =>
      by_cases isZero : m = .zero
      · rw [isZero]
        exact .zero
      · have faithful := Magnitude.faithful_shortest isZero
        have digits : (Number.finite sign m).text =
            sign.text ++ String.ofList m.shortest.toText :=
          if_neg isZero
        rw [digits]
        cases sign with
        | positive =>
            rw [Sign.text, String.empty_append]
            exact .positive isZero faithful
        | negative =>
            have signed : Sign.text .negative ++ String.ofList m.shortest.toText =
                String.ofList ('-' :: m.shortest.toText) := by
              rw [← String.toList_inj]
              simp [Sign.text]
            rw [signed]
            exact .negative isZero faithful

end Reckoner
