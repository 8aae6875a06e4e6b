import Mathlib.Logic.Relation
import Reckoner.Proofs.Number.Rounded
import Reckoner.Proofs.Source.Respelling

/-! # Numerals

The lexeme of a number token writes an exact value, however long it is, and the token carries the
number that this value is rounded to. Nothing else counts: zeros in front of the numeral or behind
its last place do not change the value, and a greater value never gets a lesser number.
-/

namespace Reckoner

/-- The text writes this exact value in digits, perhaps with a point between them. -/
inductive Numeral : List Char → ℚ → Prop where
  | whole {digits : List Char} : IsDigits digits →
      Numeral digits (Nat.ofDigitChars 10 digits 0)
  | decimal {whole places : List Char} : IsDigits whole → IsDigits places →
      Numeral (whole ++ '.' :: places)
        (Nat.ofDigitChars 10 whole 0 + Nat.ofDigitChars 10 places 0 / 10 ^ places.length)

/-- The second text has one more zero, in front or behind the last place. -/
inductive Padded : List Char → List Char → Prop where
  | front {text : List Char} : Padded text ('0' :: text)
  | place {text : List Char} : '.' ∈ text → Padded text (text ++ ['0'])
  | point {text : List Char} : '.' ∉ text → Padded text (text ++ ['.', '0'])

/-- The lexeme of the token writes the value and no other, and its literal is the number that the
    value is rounded to. -/
structure Token.Denotes (token : Token) (value : ℚ) (n : Number) : Prop where
  numeral : ∀ other, Numeral token.lexeme.toList other ↔ other = value
  literal : token.literal = some (.number n)
  rounded : ∀ other, Number.Rounds value other ↔ other = n

namespace Numeral

variable {text : List Char} {value : ℚ}

theorem value_ofText (numeral : Numeral text value) : (Decimal.ofText text).value = value := by
  cases numeral with
  | whole digits => simp [Piece.ofText_whole digits, Decimal.value]
  | decimal digits _ => rw [Piece.ofText_decimal digits, Decimal.value_append]

theorem unique (numeral : Numeral text value) {other : ℚ} (numeral' : Numeral text other) :
    other = value :=
  numeral'.value_ofText.symm.trans numeral.value_ofText

end Numeral

theorem isDigit_zero : IsDigit '0' := (isDigit_iff '0').mp (by decide)

theorem IsDigits.zero_front {digits : List Char} (isDigits : IsDigits digits) :
    IsDigits ('0' :: digits) :=
  ⟨by simp, by simpa [isDigit_zero] using isDigits.2⟩

theorem IsDigits.zero_behind {digits : List Char} (isDigits : IsDigits digits) :
    IsDigits (digits ++ ['0']) := by
  refine ⟨by simp, fun c member => ?_⟩
  obtain inDigits | isZero := List.mem_append.mp member
  · exact isDigits.2 c inDigits
  · exact List.mem_singleton.mp isZero ▸ isDigit_zero

theorem IsDigits.no_point {digits : List Char} (isDigits : IsDigits digits) : '.' ∉ digits := by
  intro inside
  have isDigit := (isDigit_iff '.').mpr (isDigits.2 '.' inside)
  exact absurd isDigit (by decide)

theorem ofDigitChars_zero_front (digits : List Char) :
    Nat.ofDigitChars 10 ('0' :: digits) 0 = Nat.ofDigitChars 10 digits 0 := by
  simp [Nat.ofDigitChars_cons]

theorem ofDigitChars_zero_behind (digits : List Char) :
    Nat.ofDigitChars 10 (digits ++ ['0']) 0 = 10 * Nat.ofDigitChars 10 digits 0 := by
  simp [Nat.ofDigitChars_append, Nat.ofDigitChars_cons, Nat.ofDigitChars_nil]

namespace Numeral

variable {text text' : List Char} {value : ℚ}

theorem of_padded (numeral : Numeral text value) (padded : Padded text text') :
    Numeral text' value := by
  cases numeral with
  | @whole digits isDigits =>
      cases padded with
      | front =>
          rw [← ofDigitChars_zero_front]
          exact .whole isDigits.zero_front
      | place hasPoint => exact absurd hasPoint isDigits.no_point
      | point _ =>
          have isZero : IsDigits ['0'] := ⟨by simp, by simp [isDigit_zero]⟩
          simpa [Nat.ofDigitChars_cons, Nat.ofDigitChars_nil] using Numeral.decimal isDigits isZero
  | @decimal whole places isWhole isPlaces =>
      cases padded with
      | front =>
          rw [← ofDigitChars_zero_front]
          exact .decimal isWhole.zero_front isPlaces
      | place _ =>
          have same : (Nat.ofDigitChars 10 places 0 / 10 ^ places.length : ℚ) =
              Nat.ofDigitChars 10 (places ++ ['0']) 0 / 10 ^ (places ++ ['0']).length := by
            rw [ofDigitChars_zero_behind, List.length_append, List.length_singleton, pow_succ]
            push_cast
            field_simp
          rw [same, List.append_assoc]
          exact .decimal isWhole isPlaces.zero_behind
      | point noPoint => simp at noPoint

theorem of_padded_more (numeral : Numeral text value)
    (padded : Relation.ReflTransGen Padded text text') : Numeral text' value := by
  induction padded with
  | refl => exact numeral
  | tail _ last ih => exact ih.of_padded last

end Numeral

theorem Piece.Yields.exists_denotes {piece : Piece} {token : Token} (yields : piece.Yields token)
    (lexeme : Lexeme piece.role piece.text) (isNumber : token.kind = .number) :
    ∃ d : Decimal, Numeral token.lexeme.toList d.value ∧
      token.literal = some (.number d.toNumber) := by
  cases yields with
  | operator isOperator =>
      rw [isOperator] at lexeme
      cases lexeme with
      | operator member =>
          have noNumber : ∀ entry ∈ operatorSpellings, entry.2 ≠ .number := by decide
          exact absurd isNumber (noNumber _ member)
  | whole _ digits =>
      refine ⟨_, ?_, rfl⟩
      simpa [Decimal.value] using Numeral.whole digits
  | decimal _ isText digits places =>
      refine ⟨_, ?_, rfl⟩
      simpa [isText, Decimal.value_append] using Numeral.decimal digits places
  | string | keyword | identifier => cases isNumber

theorem exists_denotes {source : String} {token : Token}
    (member : token ∈ (scan source).stream.toTokens) (isNumber : token.kind = .number) :
    ∃ value n, token.Denotes value n := by
  have cut : token ∈ (scan source).stream.unread := by
    rcases List.mem_append.mp member with inUnread | isFinal
    · exact inUnread
    · rw [List.mem_singleton.mp isFinal] at isNumber
      cases isNumber
  obtain ⟨piece, lexeme, yields⟩ := exists_yields_of_mem cut
  obtain ⟨d, numeral, literal⟩ := yields.exists_denotes lexeme isNumber
  have rounds := Number.rounds_toNumber d
  refine ⟨d.value, d.toNumber, ⟨fun other => ⟨numeral.unique, fun same => same ▸ numeral⟩, literal,
    fun other => ⟨fun rounds' => rounds'.unique rounds, fun same => same ▸ rounds⟩⟩⟩

/-- Every number token of a source carries the number that the exact value of its lexeme is rounded
    to. It is never negative. Zeros that could be left out of the lexeme change nothing, and of two
    number tokens, of the same source or of different ones, the one with the greater value does not
    carry the lesser number. -/
theorem number_literals_are_nearest (source source' : String) (token token' : Token)
    (member : token ∈ (scan source).stream.toTokens)
    (member' : token' ∈ (scan source').stream.toTokens)
    (isNumber : token.kind = .number) (isNumber' : token'.kind = .number) :
    ∃ value n value' n', token.Denotes value n ∧ token'.Denotes value' n' ∧
      (n = .infinite .positive ∨ ∃ m, n = .finite .positive m) ∧
      (Relation.ReflTransGen Padded token.lexeme.toList token'.lexeme.toList → value = value') ∧
      (value = value' → n = n') ∧ (value ≤ value' → n.lessOrEqual n' = true) := by
  obtain ⟨value, n, denotes⟩ := exists_denotes member isNumber
  obtain ⟨value', n', denotes'⟩ := exists_denotes member' isNumber'
  have rounds := (denotes.rounded n).mpr rfl
  have rounds' := (denotes'.rounded n').mpr rfl
  refine ⟨value, n, value', n', denotes, denotes', rounds.not_negative, ?_, ?_, ?_⟩
  · intro padded
    have numeral := (denotes.numeral value).mpr rfl
    exact (denotes'.numeral value).mp (numeral.of_padded_more padded)
  · intro same
    exact rounds.unique (same ▸ rounds')
  · exact rounds.lessOrEqual rounds'

/-- The value lies half-way between two numbers, and the even one is taken. -/
theorem number_literals_are_nearest_tie :
    let n : Number := .finite .positive ⟨1076 * binade, by decide⟩
    let token : Token := ⟨.number, "9007199254740993", some (.number n), 1⟩
    let token' : Token := ⟨.number, "09007199254740993.0", some (.number n), 2⟩
    (token ∈ (scan "9007199254740993").stream.toTokens ∧
      token' ∈ (scan "1 +\n09007199254740993.0").stream.toTokens ∧
      token.kind = .number ∧ token'.kind = .number) ∧
    ∃ value n value' n', token.Denotes value n ∧ token'.Denotes value' n' ∧
      (n = .infinite .positive ∨ ∃ m, n = .finite .positive m) ∧
      (Relation.ReflTransGen Padded token.lexeme.toList token'.lexeme.toList → value = value') ∧
      (value = value' → n = n') ∧ (value ≤ value' → n.lessOrEqual n' = true) := by
  intro n token token'
  have member : token ∈ (scan "9007199254740993").stream.toTokens := by decide +kernel
  have member' : token' ∈ (scan "1 +\n09007199254740993.0").stream.toTokens := by decide +kernel
  exact ⟨⟨member, member', rfl, rfl⟩,
    number_literals_are_nearest _ _ token token' member member' rfl rfl⟩

end Reckoner
