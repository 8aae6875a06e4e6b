import Reckoner.Proofs.Number.Written

/-! # Numbers told apart

The text of a number shows its place among all numbers and nothing else. Only the two zeros share a
place, so they are the only numbers that are written alike, and programs find them equal too.
-/

namespace Reckoner

namespace Sign

@[simp] theorem natAbs_apply (sign : Sign) (size : ℕ) : (sign.apply size).natAbs = size := by
  cases sign <;> simp [apply]

@[simp] theorem apply_zero (sign : Sign) : sign.apply 0 = 0 := by
  cases sign <;> simp [apply]

@[simp] theorem ofInt_apply (sign : Sign) {size : ℕ} (positive : 0 < size) :
    ofInt (sign.apply size) = sign := by
  cases sign with
  | positive => exact if_neg (Int.not_lt.mpr (Int.natCast_nonneg size))
  | negative => exact if_pos (Int.neg_neg_of_pos (Int.natCast_pos.mpr positive))

theorem ofInt_inj {place place' : ℤ} (sameSign : ofInt place = ofInt place')
    (sameSize : place.natAbs = place'.natAbs) : place = place' := by
  unfold ofInt at sameSign
  split at sameSign <;> split at sameSign <;> first | omega | cases sameSign

end Sign

namespace Number

/-- The number at a place that is not negative. Infinity stands behind the last magnitude. -/
def ofRank (rank : ℕ) : Number :=
  if less : rank < magnitudeCount then .finite .positive ⟨rank, less⟩ else .infinite .positive

@[simp] theorem ofRank_rank (m : Magnitude) : ofRank m.rank = .finite .positive m :=
  dif_pos m.rank_lt

@[simp] theorem ofRank_count : ofRank magnitudeCount = .infinite .positive :=
  dif_neg (Nat.lt_irrefl _)

/-- What is written is told by the place alone. -/
theorem text_of_place {n : Number} {place : ℤ} (stands : n.place? = some place) :
    n.text = (Sign.ofInt place).text ++ (ofRank place.natAbs).text := by
  cases n with
  | nan => cases stands
  | infinite sign =>
      obtain rfl : sign.apply magnitudeCount = place := Option.some.inj stands
      have positive : 0 < magnitudeCount := by decide
      simp [text, Sign.text, positive]
  | finite sign m =>
      obtain rfl : sign.apply m.rank = place := Option.some.inj stands
      rw [Sign.natAbs_apply, ofRank_rank]
      by_cases isZero : m = .zero
      · simp [text, isZero, Magnitude.zero, Sign.ofInt, Sign.text]
      · have positive : 0 < m.rank := by
          apply Nat.pos_of_ne_zero
          intro noRank
          cases m
          exact isZero (by simpa [Magnitude.zero] using noRank)
        simp [text, isZero, positive, Sign.text]

/-- Numbers with a positive sign, and these are the ones that are written without one. -/
def Unsigned (n : Number) : Prop := n = .infinite .positive ∨ ∃ m, n = .finite .positive m

theorem ofRank_unsigned (rank : ℕ) : (ofRank rank).Unsigned := by
  unfold ofRank
  split
  · exact .inr ⟨_, rfl⟩
  · exact .inl rfl

theorem ofRank_inj {rank rank' : ℕ} (le : rank ≤ magnitudeCount) (le' : rank' ≤ magnitudeCount)
    (same : ofRank rank = ofRank rank') : rank = rank' := by
  unfold ofRank at same
  split at same
  · split at same
    · simpa using same
    · cases same
  · split at same
    · cases same
    · omega

/-- The number without a sign that is written so. -/
def ofText (text : String) : Number :=
  if text = "Infinity" then .infinite .positive else (Decimal.ofText text.toList).toNumber

variable {n : Number}

theorem word_infinity : Lexeme .word "Infinity".toList :=
  .word ((isWordStart_iff 'I').mp (by decide))
    fun c member => (isWordPart_iff c).mp (List.all_eq_true.mp (by decide) c member)

theorem Unsigned.lexeme (unsigned : n.Unsigned) :
    Lexeme .word n.text.toList ∨ Lexeme .number n.text.toList := by
  obtain rfl | ⟨m, rfl⟩ := unsigned
  · exact .inl word_infinity
  · exact .inr (text_positive m).1

theorem Unsigned.ofText_text (unsigned : n.Unsigned) : ofText n.text = n := by
  obtain rfl | ⟨m, rfl⟩ := unsigned
  · rfl
  · obtain ⟨lexeme, standsFor⟩ := text_positive m
    have notInfinity : (Number.finite .positive m).text ≠ "Infinity" := by
      intro same
      rw [same] at lexeme
      cases lexeme.role_unique word_infinity
    rw [ofText, if_neg notInfinity, standsFor]

theorem Unsigned.text_ne_minus (unsigned : n.Unsigned) (behind : String) :
    n.text ≠ "-" ++ behind := by
  intro same
  have isText : n.text.toList = '-' :: behind.toList := by simp [same]
  have lexeme := unsigned.lexeme
  rw [isText] at lexeme
  obtain isWord | isNumber := lexeme
  · exact absurd (isWord.lead_of_begins (List.prefix_refl _)) (by decide)
  · exact absurd (isNumber.lead_of_begins (List.prefix_refl _)) (by decide)

theorem sign_text_inj {sign sign' : Sign} {rank rank' : ℕ}
    (same : sign.text ++ (ofRank rank).text = sign'.text ++ (ofRank rank').text) :
    sign = sign' ∧ (ofRank rank).text = (ofRank rank').text := by
  cases sign with
  | positive =>
      cases sign' with
      | positive => simpa [Sign.text] using same
      | negative =>
          rw [Sign.text, String.empty_append] at same
          exact absurd same ((ofRank_unsigned rank).text_ne_minus _)
  | negative =>
      cases sign' with
      | positive =>
          rw [Sign.text, Sign.text, String.empty_append] at same
          exact absurd same.symm ((ofRank_unsigned rank').text_ne_minus _)
      | negative => simpa [Sign.text] using same

theorem natAbs_place_le {place : ℤ} (stands : n.place? = some place) :
    place.natAbs ≤ magnitudeCount := by
  cases n with
  | nan => cases stands
  | infinite sign =>
      obtain rfl : sign.apply magnitudeCount = place := Option.some.inj stands
      rw [Sign.natAbs_apply]
  | finite sign m =>
      obtain rfl : sign.apply m.rank = place := Option.some.inj stands
      rw [Sign.natAbs_apply]
      exact m.rank_lt.le

theorem exists_place (isNumber : n ≠ .nan) : ∃ place, n.place? = some place := by
  cases n with
  | nan => exact absurd rfl isNumber
  | infinite => exact ⟨_, rfl⟩
  | finite => exact ⟨_, rfl⟩

theorem text_eq_iff {n' : Number} (isNumber : n ≠ .nan) (isNumber' : n' ≠ .nan) :
    n.text = n'.text ↔ n.place? = n'.place? := by
  obtain ⟨place, stands⟩ := exists_place isNumber
  obtain ⟨place', stands'⟩ := exists_place isNumber'
  constructor
  · intro same
    rw [text_of_place stands, text_of_place stands'] at same
    obtain ⟨sameSign, sameText⟩ := sign_text_inj same
    have sameRank := congrArg ofText sameText
    rw [(ofRank_unsigned _).ofText_text, (ofRank_unsigned _).ofText_text] at sameRank
    have sameSize := ofRank_inj (natAbs_place_le stands) (natAbs_place_le stands') sameRank
    rw [stands, stands', Sign.ofInt_inj sameSign sameSize]
  · intro same
    obtain rfl : place = place' := by simpa [stands, stands'] using same
    rw [text_of_place stands, text_of_place stands']

theorem equals_iff (n n' : Number) :
    n.equals n' = true ↔ n ≠ .nan ∧ n' ≠ .nan ∧ n.text = n'.text := by
  by_cases isNumber : n = .nan
  · simp [isNumber, equals, compareBy, place?]
  by_cases isNumber' : n' = .nan
  · simp [isNumber', equals, compareBy, place?]
  obtain ⟨place, stands⟩ := exists_place isNumber
  obtain ⟨place', stands'⟩ := exists_place isNumber'
  rw [text_eq_iff isNumber isNumber']
  simp [equals, compareBy, stands, stands', isNumber, isNumber']

end Number

end Reckoner
