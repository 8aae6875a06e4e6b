import Reckoner.Proofs.Source.Spacing

/-! # Tokens out of their lexemes

A token says nothing of a source but its own lexeme and its line. The lexemes alone, with a space
between neighbours, are a source that has the same tokens again, on whatever lines, and is free
of faults. What stood around the lexemes, and does not belong to a token, is in none of them.
-/

namespace Reckoner

/-- The tokens before the end of the input. -/
def TokenStream.words (stream : TokenStream) : List Token :=
  stream.toTokens.filter fun token => token.kind != .endOfInput

/-- Outside of strings there are only digits, letters and marks in a token, and no comment
    opens in it. -/
def Token.Pure (token : Token) : Prop :=
  token.kind = .string ∨
    (∀ c ∈ token.lexeme.toList, Lead.ofChar c ∈ [.digit, .letter, .mark]) ∧
      ¬ ['/', '/'] <:+: token.lexeme.toList

theorem Piece.map_unplaced_token? (line line' : Nat) (role : Role) (text : List Char) :
    (Piece.mk line role text).token?.map Token.unplaced =
      (Piece.mk line' role text).token?.map Token.unplaced := by
  cases role <;> rfl

theorem Piece.spelled_of_token? {piece : Piece} {token : Token}
    (lexeme : Lexeme piece.role piece.text) (found : piece.token? = some token) :
    token.Spelled := by
  refine ⟨piece.role, ?_, fun line => ?_⟩
  · rw [lexeme_of_token? found]
    exact lexeme
  · rw [lexeme_of_token? found, map_unplaced_token? line piece.line]
    exact congrArg (Option.map Token.unplaced) found

theorem exists_piece_of_mem {source : String} {token : Token}
    (member : token ∈ (scan source).stream.unread) :
    ∃ piece : Piece, Lexeme piece.role piece.text ∧ piece.isToken = true ∧
      piece.token? = some token := by
  obtain ⟨piece, inPieces, found⟩ := List.mem_filterMap.mp member
  cases isToken : piece.isToken with
  | false => simp [Piece.token?_eq_none isToken] at found
  | true =>
      obtain ⟨rest, first⟩ := (pieces_split source).first_of_mem inPieces
      exact ⟨piece, first.lexeme_of_isToken isToken, isToken, found⟩

theorem spelled_of_mem {source : String} {token : Token}
    (member : token ∈ (scan source).stream.unread) : token.Spelled := by
  obtain ⟨piece, lexeme, -, found⟩ := exists_piece_of_mem member
  exact piece.spelled_of_token? lexeme found

theorem exists_yields_of_mem {source : String} {token : Token}
    (member : token ∈ (scan source).stream.unread) :
    ∃ piece : Piece, Lexeme piece.role piece.text ∧ piece.Yields token := by
  obtain ⟨piece, lexeme, isToken, found⟩ := exists_piece_of_mem member
  obtain ⟨token', found', yields⟩ := Piece.token?_yields lexeme isToken
  obtain rfl : token = token' := Option.some.inj (found.symm.trans found')
  exact ⟨piece, lexeme, yields⟩

theorem words_scan (source : String) :
    (scan source).stream.words = (scan source).stream.unread := by
  have noEnd : ∀ token ∈ (scan source).stream.unread, (token.kind != .endOfInput) = true := by
    intro token member
    obtain ⟨piece, lexeme, yields⟩ := exists_yields_of_mem member
    exact bne_iff_ne.mpr (yields.kind_ne_endOfInput lexeme)
  rw [TokenStream.words, TokenStream.toTokens, List.filter_append,
    List.filter_eq_self.mpr noEnd]
  exact List.append_nil _

theorem Lead.ofChar_slash : Lead.ofChar '/' = .mark := by decide

theorem not_isInfix_of_leads {text : List Char} (leads : ∀ c ∈ text, c = '.' ∨
    Lead.ofChar c = .digit ∨ Lead.ofChar c = .letter) :
    (∀ c ∈ text, Lead.ofChar c ∈ [.digit, .letter, .mark]) ∧ ¬ ['/', '/'] <:+: text := by
  constructor
  · intro c member
    rcases leads c member with rfl | digit | letter
    · decide
    · simp [digit]
    · simp [letter]
  · intro inside
    have slash : '/' ∈ text := inside.subset List.mem_cons_self
    rcases leads '/' slash with point | digit | letter
    · cases point
    · cases Lead.ofChar_slash.symm.trans digit
    · cases Lead.ofChar_slash.symm.trans letter

theorem Lexeme.leads {role : Role} {text : List Char} (lexeme : Lexeme role text)
    (isToken : (Piece.mk 0 role text).isToken = true) (noString : role ≠ .string) :
    (∀ c ∈ text, Lead.ofChar c ∈ [.digit, .letter, .mark]) ∧ ¬ ['/', '/'] <:+: text := by
  cases lexeme with
  | comment | separator => cases isToken
  | string => exact absurd rfl noString
  | operator member =>
      have spelled : ∀ entry ∈ operatorSpellings,
          entry.1.all (fun c => Lead.ofChar c = .mark) ∧
            entry.1.length ≤ 2 ∧ ['/', '/'] ≠ entry.1 := by
        decide
      obtain ⟨marks, short, noComment⟩ := spelled _ member
      refine ⟨fun c inText => ?_, fun inside => noComment (inside.eq_of_length_le short)⟩
      rw [of_decide_eq_true (List.all_eq_true.mp marks c inText)]
      decide
  | whole digits =>
      exact not_isInfix_of_leads fun c member => .inr (.inl (Lead.ofChar_digit (digits.2 c member)))
  | decimal digits places =>
      refine not_isInfix_of_leads fun c member => ?_
      rcases List.mem_append.mp member with inWhole | inFraction
      · exact .inr (.inl (Lead.ofChar_digit (digits.2 c inWhole)))
      · rcases List.mem_cons.mp inFraction with isPoint | inPlaces
        · exact .inl isPoint
        · exact .inr (.inl (Lead.ofChar_digit (places.2 c inPlaces)))
  | word letter parts =>
      refine not_isInfix_of_leads fun c member => ?_
      rcases List.mem_cons.mp member with rfl | inOthers
      · exact .inr (.inr (Lead.ofChar_letter letter))
      · rcases parts c inOthers with isLetter | isDigit
        · exact .inr (.inr (Lead.ofChar_letter isLetter))
        · exact .inr (.inl (Lead.ofChar_digit isDigit))

theorem pure_of_mem {source : String} {token : Token}
    (member : token ∈ (scan source).stream.unread) : token.Pure := by
  obtain ⟨piece, lexeme, isToken, found⟩ := exists_piece_of_mem member
  unfold Token.Pure
  rw [Piece.lexeme_of_token? found]
  by_cases string : piece.role = .string
  · refine .inl ?_
    unfold Piece.token? at found
    rw [string] at found
    cases found
    rfl
  · exact .inr (lexeme.leads isToken string)

theorem Token.spaced_congr {tokens tokens' : List Token}
    (same : tokens.map lexeme = tokens'.map lexeme) : spaced tokens = spaced tokens' :=
  congrArg (" ".intercalate ·) same

/-- The lexemes of a source with spaces between them are a source without faults that has the
    same tokens, wherever they stand. Nothing but the lexemes counts: other sources with the same
    lexemes have the same tokens, and nothing that stands between lexemes gets into one. -/
theorem scan_is_decided_by_lexemes (source : String) :
    let words := (scan source).stream.words
    let again := scan (Token.spaced words)
    again.diagnostics = [] ∧
      again.stream.toTokens.map Token.unplaced =
        words.map Token.unplaced ++ [.endOfInput 0] ∧
      (∀ token ∈ words, token.Pure) ∧
      ∀ other : String,
        (scan other).stream.words.map Token.lexeme = words.map Token.lexeme ↔
          (scan other).stream.words.map Token.unplaced = words.map Token.unplaced := by
  intro words again
  have rescanned (source : String) := scan_spaced fun token => @spelled_of_mem source token
  have isWords : words = (scan source).stream.unread := words_scan source
  obtain ⟨clean, same⟩ := rescanned source
  rw [← isWords] at clean same
  refine ⟨clean, ?_, ?_, fun other => ⟨fun lexemes => ?_, fun unplaced => ?_⟩⟩
  · rw [TokenStream.toTokens, List.map_append, same]
    rfl
  · rw [isWords]
    exact fun token => pure_of_mem
  · obtain ⟨-, otherSame⟩ := rescanned other
    rw [← words_scan other, Token.spaced_congr lexemes] at otherSame
    exact otherSame.symm.trans same
  · have lexemes := congrArg (List.map Token.lexeme) unplaced
    rw [List.map_map, List.map_map] at lexemes
    exact lexemes

end Reckoner
