import Reckoner.Number.Shortest
import Reckoner.Proofs.Number.Exact
import Reckoner.Proofs.Source.Splitting

/-! # Numbers as they are written

The text of a finite number is a number to the scanner, and it stands for that number again.
-/

namespace Reckoner

namespace Decimal

/-- The digits with zeros in front, so that one of them stands before the point. -/
def padded (d : Decimal) : List Char :=
  let digits := Nat.toDigits 10 d.digits
  List.replicate (d.places + 1 - digits.length) '0' ++ digits

theorem places_lt_length_padded (d : Decimal) : d.places < d.padded.length := by
  simp only [padded, List.length_append, List.length_replicate]
  omega

theorem isDigit_of_mem_padded {d : Decimal} {c : Char} (member : c ∈ d.padded) : IsDigit c := by
  rcases List.mem_append.mp member with inZeros | inDigits
  · rw [List.eq_of_mem_replicate inZeros]
    exact (isDigit_iff _).mp (by decide)
  · exact (isDigit_iff c).mp (Nat.isDigit_of_mem_toDigits (by decide) (by decide) inDigits)

@[simp] theorem ofDigitChars_padded (d : Decimal) : Nat.ofDigitChars 10 d.padded 0 = d.digits := by
  rw [padded, Nat.ofDigitChars_append, Nat.ofDigitChars_replicate_zero, Nat.mul_zero,
    Nat.ofDigitChars_toDigits (by decide) (by decide)]

theorem toText_cases (d : Decimal) :
    (d.places = 0 ∧ d.toText = Nat.toDigits 10 d.digits ∧ IsDigits d.toText) ∨
      ∃ whole fraction, d.toText = whole ++ '.' :: fraction ∧ IsDigits whole ∧
        IsDigits fraction ∧ whole ++ fraction = d.padded ∧ fraction.length = d.places := by
  by_cases noPlaces : d.places = 0
  · have text : d.toText = Nat.toDigits 10 d.digits := if_pos noPlaces
    refine .inl ⟨noPlaces, text, ?_⟩
    rw [text]
    exact ⟨Nat.toDigits_ne_nil, fun c member =>
      (isDigit_iff c).mp (Nat.isDigit_of_mem_toDigits (by decide) (by decide) member)⟩
  · have long := d.places_lt_length_padded
    let count := d.padded.length - d.places
    have places : (d.padded.drop count).length = d.places := by
      rw [List.length_drop]
      omega
    refine .inr ⟨d.padded.take count, d.padded.drop count, if_neg noPlaces, ?_, ?_,
      List.take_append_drop _ _, places⟩
    · refine ⟨?_, fun c member => isDigit_of_mem_padded (List.mem_of_mem_take member)⟩
      apply List.ne_nil_of_length_pos
      rw [List.length_take]
      omega
    · refine ⟨?_, fun c member => isDigit_of_mem_padded (List.mem_of_mem_drop member)⟩
      apply List.ne_nil_of_length_pos
      omega

theorem toText_lexeme (d : Decimal) : Lexeme .number d.toText := by
  rcases d.toText_cases with ⟨_, _, digits⟩ | ⟨whole, fraction, text, wholeDigits, places, _⟩
  · exact .whole digits
  · rw [text]
    exact .decimal wholeDigits places

@[simp] theorem ofText_toText (d : Decimal) : ofText d.toText = d := by
  rcases d.toText_cases with
    ⟨noPlaces, text, digits⟩ | ⟨whole, fraction, text, wholeDigits, _, parts, places⟩
  · rw [Piece.ofText_whole digits, text, Nat.ofDigitChars_toDigits (by decide) (by decide),
      ← noPlaces]
  · rw [text, Piece.ofText_decimal wholeDigits, parts, ofDigitChars_padded, places]

end Decimal

namespace Number

theorem text_positive (m : Magnitude) :
    Lexeme .number (Number.finite .positive m).text.toList ∧
      (Decimal.ofText (Number.finite .positive m).text.toList).toNumber = .finite .positive m := by
  by_cases zero : m = .zero
  · have text : (Number.finite .positive m).text.toList = (Decimal.mk 0 0).toText := by
      simp only [Number.text, if_pos zero]
      decide
    rw [text, Decimal.ofText_toText]
    refine ⟨Decimal.toText_lexeme _, (Decimal.toNumber_eq_iff _ m).mpr ?_⟩
    have noUnits : Magnitude.zero.units = 0 := by decide
    have noSize : (Decimal.mk 0 0).value = m.size := by
      rw [zero, Magnitude.size, noUnits, Decimal.value, Nat.cast_zero, zero_div, zero_div]
    rw [noSize]
    exact m.isNearest_size
  · have text : (Number.finite .positive m).text.toList = m.shortest.toText := by
      simp only [Number.text, if_neg zero]
      simp [Sign.text]
    rw [text, Decimal.ofText_toText]
    exact ⟨Decimal.toText_lexeme _, m.toNumber_shortest⟩

end Number

end Reckoner
