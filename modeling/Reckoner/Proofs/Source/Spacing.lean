import Reckoner.Proofs.Source.Splitting

/-! # Tokens kept apart

A separator ends every lexeme but a comment, and is a piece of its own. So a source that is
written as lexemes with a space between neighbours falls into these lexemes and the spaces again,
and scanning it gives the tokens of the lexemes and nothing else.
-/

namespace Reckoner

theorem not_isSeparator_of_isDigit {c : Char} (digit : IsDigit c) : ¬ isSeparator c = true :=
  not_isSeparator_of_le digit.1

theorem not_isSeparator_of_isLetter {c : Char} (letter : IsLetter c) : ¬ isSeparator c = true :=
  not_isSeparator_of_le (le_of_isLetter letter)

namespace Lexeme

theorem role_of_separator {role : Role} {text : List Char} {c : Char} (lexeme : Lexeme role text)
    (separates : isSeparator c = true) (inside : c ∈ text) :
    role = .comment ∨ role = .string ∨ role = .separator := by
  cases lexeme with
  | comment => exact .inl rfl
  | string => exact .inr (.inl rfl)
  | separator => exact .inr (.inr rfl)
  | operator member =>
      have spelled : ∀ entry ∈ operatorSpellings, entry.1.any isSeparator = false := by decide
      exact absurd separates (List.any_eq_false.mp (spelled _ member) c inside)
  | whole digits => exact absurd separates (not_isSeparator_of_isDigit (digits.2 c inside))
  | decimal digits places =>
      rcases List.mem_append.mp inside with inWhole | inFraction
      · exact absurd separates (not_isSeparator_of_isDigit (digits.2 c inWhole))
      · rcases List.mem_cons.mp inFraction with rfl | inPlaces
        · exact absurd separates (by decide)
        · exact absurd separates (not_isSeparator_of_isDigit (places.2 c inPlaces))
  | word letter parts =>
      rcases List.mem_cons.mp inside with rfl | inOthers
      · exact absurd separates (not_isSeparator_of_isLetter letter)
      · rcases parts c inOthers with isLetter | isDigit
        · exact absurd separates (not_isSeparator_of_isLetter isLetter)
        · exact absurd separates (not_isSeparator_of_isDigit isDigit)

theorem lead_eq_of_begins {role role' : Role} {text longer : List Char} (one : Lexeme role text)
    (other : Lexeme role' longer) (begins : text <+: longer) : role.lead = role'.lead := by
  obtain ⟨c, others, rfl, lead⟩ := other.lead_eq
  exact (one.lead_of_begins begins).trans lead

theorem not_over_separator {role role' : Role} {text more : List Char} {c : Char}
    (one : Lexeme role text) (noComment : role ≠ .comment) (separates : isSeparator c = true) :
    ¬ Lexeme role' (text ++ c :: more) := by
  intro other
  have begins : text <+: text ++ c :: more := List.prefix_append _ _
  have sameLead := one.lead_eq_of_begins other begins
  have longerRole := other.role_of_separator separates (by simp)
  generalize goesOn : text ++ c :: more = longer at other begins
  rcases longerRole with rfl | rfl | rfl
  · -- A comment has a second slash where the separator stands.
    cases other with
    | comment =>
        cases one with
        | operator member =>
            rcases Extent.operator_cases (.operator member) begins with rfl | ⟨-, second, -⟩
            · simp only [List.cons_append, List.nil_append, List.cons.injEq, true_and] at goesOn
              obtain ⟨rfl, -⟩ := goesOn
              exact absurd separates (by decide)
            · simp at second
        | comment => exact noComment rfl
        | string | whole | decimal | word | separator => cases sameLead
  · -- A string has already ended with its own quote.
    cases one with
    | @string body noQuote =>
        have isRun : Run (fun d => d != '"') body ('"' :: c :: more) :=
          ⟨fun d member => bne_iff_ne.mpr (noQuote d member), by simp⟩
        obtain ⟨same, -⟩ := Extent.string_of_quote isRun other (by simp [← goesOn])
        simp [same] at goesOn
    | operator | comment | whole | decimal | word | separator => cases sameLead
  · obtain ⟨d, others, rfl, -⟩ := one.lead_eq
    cases other with
    | separator => simp at goesOn

/-- A lexeme with a separator behind it, or nothing, is the first piece. -/
theorem firstPiece_apart {role : Role} {text rest : List Char} (lexeme : Lexeme role text)
    (noComment : role ≠ .comment) (apart : ∀ c ∈ rest.head?, isSeparator c = true) :
    FirstPiece (text ++ rest) role text := by
  refine .lexeme ⟨lexeme, List.prefix_append text rest, ?_⟩
  intro role' piece other begins
  by_contra longer
  have goesOn : text <+: piece :=
    List.prefix_of_prefix_length_le (List.prefix_append text rest) begins (by omega)
  obtain ⟨more, rfl⟩ := goesOn
  cases more with
  | nil => simp at longer
  | cons c more =>
      have inRest : c :: more <+: rest := (List.prefix_append_right_inj text).mp begins
      obtain ⟨after, rfl⟩ := inRest
      exact lexeme.not_over_separator noComment (apart c rfl) other

theorem diagnostic?_eq_none {role : Role} {text : List Char} (lexeme : Lexeme role text)
    (line : Nat) : (Piece.mk line role text).diagnostic? = none := by
  cases lexeme <;> rfl

end Lexeme

namespace Token

/-- What is left of a token when it does not matter where it stands. -/
def unplaced (token : Token) : Token := { token with line := 0 }

theorem unplaced_eq_iff (token other : Token) : token.unplaced = other.unplaced ↔
    token.kind = other.kind ∧ token.lexeme = other.lexeme ∧ token.literal = other.literal := by
  simp [unplaced]

theorem kind_eq_of_unplaced {token other : Token} (same : token.unplaced = other.unplaced) :
    token.kind = other.kind :=
  ((unplaced_eq_iff token other).mp same).1

/-- The token is what its lexeme gives on any line. -/
def Spelled (token : Token) : Prop :=
  ∃ role, Lexeme role token.lexeme.toList ∧ ∀ line,
    (Piece.mk line role token.lexeme.toList).token?.map unplaced = some token.unplaced

/-- The lexemes of the tokens, with a space between neighbours. -/
def spaced (tokens : List Token) : String := " ".intercalate (tokens.map lexeme)

@[simp] theorem toList_spaced_cons (token next : Token) (tokens : List Token) :
    (spaced (token :: next :: tokens)).toList =
      token.lexeme.toList ++ ' ' :: (spaced (next :: tokens)).toList := by
  simp [spaced, String.intercalate_cons_cons]

theorem Spelled.exists_split {token : Token} (spelled : token.Spelled)
    {before rest : List Char} {pieces : List Piece}
    (apart : ∀ c ∈ rest.head?, isSeparator c = true)
    (split : Split (before ++ token.lexeme.toList) rest pieces) :
    ∃ piece : Piece, Split before (token.lexeme.toList ++ rest) (piece :: pieces) ∧
      piece.diagnostic? = none ∧ piece.token?.map unplaced = some token.unplaced := by
  obtain ⟨role, lexeme, gives⟩ := spelled
  have noComment : role ≠ .comment := by
    rintro rfl
    cases gives 0
  exact ⟨_, .cons rfl lexeme.ne_nil (lexeme.firstPiece_apart noComment apart) split,
    lexeme.diagnostic?_eq_none _, gives _⟩

end Token

theorem Split.separator {c : Char} (separates : isSeparator c = true) {before rest : List Char}
    {pieces : List Piece} (split : Split (before ++ [c]) rest pieces) :
    Split before (c :: rest) (⟨1 + before.count '\n', .separator, [c]⟩ :: pieces) :=
  .cons rfl (List.cons_ne_nil _ _) (Extent.cuts_separator ((isSeparator_iff c).mp separates) rest)
    split

theorem Split.exists_spaced (tokens : List Token) (spelled : ∀ token ∈ tokens, token.Spelled)
    (before : List Char) :
    ∃ pieces, Split before (Token.spaced tokens).toList pieces ∧
      pieces.filterMap Piece.diagnostic? = [] ∧
      (pieces.filterMap Piece.token?).map Token.unplaced = tokens.map Token.unplaced := by
  induction tokens generalizing before with
  | nil => exact ⟨[], .nil, rfl, rfl⟩
  | cons token tokens ih =>
      obtain ⟨isSpelled, othersSpelled⟩ := List.forall_mem_cons.mp spelled
      cases tokens with
      | nil =>
          obtain ⟨piece, split, clean, gives⟩ := isSpelled.exists_split (by simp) .nil
          obtain ⟨found, isFound, same⟩ := Option.map_eq_some_iff.mp gives
          refine ⟨[piece], ?_, by simp [clean], by simp [isFound, same]⟩
          simpa [Token.spaced] using split
      | cons next tokens =>
          obtain ⟨pieces, tail, tailClean, tailGives⟩ :=
            ih othersSpelled (before ++ token.lexeme.toList ++ [' '])
          have space : isSeparator ' ' = true := by decide
          obtain ⟨piece, split, clean, gives⟩ :=
            isSpelled.exists_split (by simp) (tail.separator space)
          obtain ⟨found, isFound, same⟩ := Option.map_eq_some_iff.mp gives
          refine ⟨_, Token.toList_spaced_cons token next tokens ▸ split, ?_, ?_⟩
          · rw [List.filterMap_cons_none clean, List.filterMap_cons_none rfl, tailClean]
          · rw [List.filterMap_cons_some isFound, List.filterMap_cons_none rfl]
            simp only [List.map_cons, same, tailGives]

/-- Scanning spelled tokens with spaces between them gives the tokens again, on whatever lines,
    and reports nothing. -/
theorem scan_spaced {tokens : List Token} (spelled : ∀ token ∈ tokens, token.Spelled) :
    (scan (Token.spaced tokens)).diagnostics = [] ∧
      (scan (Token.spaced tokens)).stream.unread.map Token.unplaced =
        tokens.map Token.unplaced := by
  obtain ⟨cut, split, clean, gives⟩ := Split.exists_spaced tokens spelled []
  rw [split.scan_eq]
  exact ⟨clean, gives⟩

end Reckoner
