import Reckoner.Proofs.Source.Spacing

/-! # Texts under one another

A line break ends every lexeme but an open string, and nothing that the scanner has seen before
it counts behind it, except for the number of lines. So a text and another one below it are
scanned like the two texts by themselves, the lower one further down.
-/

namespace Reckoner

/-- The token so many lines further down. -/
def Token.moved (lines : Nat) (token : Token) : Token := { token with line := token.line + lines }

/-- The diagnostic so many lines further down. -/
def Diagnostic.moved (lines : Nat) : Diagnostic → Diagnostic
  | .lexical line message => .lexical (line + lines) message
  | .syntactic line location message => .syntactic (line + lines) location message
  | .runtime line message => .runtime (line + lines) message

namespace Piece

/-- The piece so many lines further down. -/
def moved (lines : Nat) (piece : Piece) : Piece := { piece with line := piece.line + lines }

@[simp] theorem endLine_moved (lines : Nat) (piece : Piece) :
    (piece.moved lines).endLine = piece.endLine + lines := by
  simp only [endLine, moved]
  omega

@[simp] theorem token?_moved (lines : Nat) (piece : Piece) :
    (piece.moved lines).token? = piece.token?.map (Token.moved lines) := by
  unfold token?
  rw [endLine_moved]
  obtain ⟨line, role, text⟩ := piece
  cases role <;> rfl

@[simp] theorem diagnostic?_moved (lines : Nat) (piece : Piece) :
    (piece.moved lines).diagnostic? = piece.diagnostic?.map (Diagnostic.moved lines) := by
  obtain ⟨line, role, text⟩ := piece
  cases role <;> rfl

end Piece

theorem Split.moved {before whole : List Char} {pieces : List Piece}
    (split : Split before whole pieces) (above : List Char) :
    Split (above ++ before) whole (pieces.map (Piece.moved (above.count '\n'))) := by
  induction split with
  | nil => exact .nil
  | @cons before whole text rest role pieces parts nonempty first _ ih =>
      rw [← List.append_assoc] at ih
      have piece : Piece.moved (above.count '\n') ⟨1 + before.count '\n', role, text⟩ =
          ⟨1 + (above ++ before).count '\n', role, text⟩ := by
        simp only [Piece.moved, List.count_append]
        congr 1
        omega
      rw [List.map_cons, piece]
      exact .cons parts nonempty first ih

namespace Lexeme

theorem role_of_lineBreak {role : Role} {text more : List Char}
    (lexeme : Lexeme role (text ++ '\n' :: more)) (nonempty : text ≠ []) : role = .string := by
  have lineBreak : isSeparator '\n' = true := by decide
  have longer := lexeme.role_of_separator lineBreak (by simp)
  generalize isText : text ++ '\n' :: more = whole at lexeme
  rcases longer with rfl | rfl | rfl
  · cases lexeme with
    | @comment body noBreak =>
        have inside : '\n' ∈ '/' :: '/' :: body := by simp [← isText]
        simp only [List.mem_cons, Char.reduceEq, false_or] at inside
        exact absurd rfl (noBreak _ inside)
  · rfl
  · cases lexeme with
    | separator =>
        have single := congrArg List.length isText
        simp only [List.length_append, List.length_cons, List.length_nil] at single
        exact absurd (List.eq_nil_of_length_eq_zero (by omega)) nonempty

/-- A lexeme at the beginning of a text ends in it, or is a string that goes on below it. -/
theorem begins_or_string {role : Role} {piece whole below : List Char}
    (lexeme : Lexeme role piece) (nonempty : whole ≠ [])
    (begins : piece <+: whole ++ '\n' :: below) :
    piece <+: whole ∨ role = .string ∧ whole <+: piece := by
  rcases List.prefix_or_prefix_of_prefix begins (List.prefix_append whole _) with within | beyond
  · exact .inl within
  · obtain ⟨more, rfl⟩ := beyond
    cases more with
    | nil => exact .inl (by simp)
    | cons c more =>
        obtain ⟨rfl, -⟩ := List.cons_prefix_cons.mp ((List.prefix_append_right_inj whole).mp begins)
        exact .inr ⟨lexeme.role_of_lineBreak nonempty, List.prefix_append _ _⟩

theorem length_le_of_begins_string {role : Role} {text piece : List Char}
    (lexeme : Lexeme role text) (string : Lexeme .string piece) (begins : text <+: piece) :
    piece.length ≤ text.length := by
  cases string with
  | @string body noQuote =>
      have isRun : Run (fun c => c != '"') body ['"'] :=
        ⟨fun c member => bne_iff_ne.mpr (noQuote c member), by simp⟩
      obtain ⟨rfl, -⟩ := Extent.string_of_quote isRun lexeme begins
      exact Nat.le_refl _

end Lexeme

/-- What stands below a line break does not change the first piece above it, unless that is a
    string left open. -/
theorem FirstPiece.above_lineBreak {whole text : List Char} {role : Role}
    (first : FirstPiece whole role text) (closed : role ≠ .fault .unterminatedString)
    (below : List Char) : FirstPiece (whole ++ '\n' :: below) role text := by
  cases first with
  | lexeme longest =>
      obtain ⟨lexeme, begins, isLongest⟩ := longest
      have nonempty : whole ≠ [] := begins.ne_nil lexeme.ne_nil
      refine .lexeme ⟨lexeme, begins.trans (List.prefix_append _ _), ?_⟩
      intro role' piece other otherBegins
      rcases other.begins_or_string nonempty otherBegins with within | ⟨rfl, beyond⟩
      · exact isLongest role' piece other within
      · exact lexeme.length_le_of_begins_string other (begins.trans beyond)
  | unterminated => exact absurd rfl closed
  | @unsupported c rest noLexeme noQuote =>
      refine .unsupported ?_ noQuote
      intro role piece lexeme begins
      rcases lexeme.begins_or_string (List.cons_ne_nil c rest) begins with within | ⟨rfl, beyond⟩
      · exact noLexeme role piece lexeme within
      · cases lexeme with
        | string => exact noQuote (List.cons_prefix_cons.mp beyond).1

theorem Split.append_below {before whole below : List Char} {upper lower : List Piece}
    (split : Split before whole upper)
    (closed : ∀ piece ∈ upper, piece.role ≠ .fault .unterminatedString)
    (rest : Split (before ++ whole) ('\n' :: below) lower) :
    Split before (whole ++ '\n' :: below) (upper ++ lower) := by
  induction split with
  | nil => simpa using rest
  | cons parts nonempty first _ ih =>
      obtain ⟨firstClosed, othersClosed⟩ := List.forall_mem_cons.mp closed
      rw [parts, ← List.append_assoc] at rest
      refine .cons ?_ nonempty (first.above_lineBreak firstClosed below) (ih othersClosed rest)
      rw [parts, List.append_assoc]

theorem pieces_append_below (above below : String)
    (closed : ∀ piece ∈ pieces above, piece.role ≠ .fault .unterminatedString) :
    pieces (above ++ "\n" ++ below) =
      pieces above ++ ⟨1 + above.toList.count '\n', .separator, ['\n']⟩ ::
        (pieces below).map (Piece.moved (1 + above.toList.count '\n')) := by
  have lower := (pieces_split below).moved (above.toList ++ ['\n'])
  rw [List.append_nil, List.count_append, List.count_singleton_self, Nat.add_comm] at lower
  have whole := (pieces_split above).append_below closed (lower.separator (by decide))
  have isSource : (above ++ "\n" ++ below).toList = above.toList ++ '\n' :: below.toList := by simp
  rw [← isSource] at whole
  exact (pieces_split _).unique whole

theorem role_ne_unterminated {source : String}
    (closed : ∀ diagnostic ∈ (scan source).diagnostics, diagnostic.message ≠ "Unterminated string")
    {piece : Piece} (member : piece ∈ pieces source) : piece.role ≠ .fault .unterminatedString := by
  intro isOpen
  have found : piece.diagnostic? = some (.lexical piece.line "Unterminated string") := by
    simp only [Piece.diagnostic?, isOpen]
    rfl
  exact closed _ (List.mem_filterMap.mpr ⟨piece, member, found⟩) rfl

/-- If the upper text leaves no string open, scanning two texts with a line break between them
    gives the tokens and the diagnostics of the upper text, and then those of the lower one as
    many lines further down as are above it. -/
theorem scan_below (above below : String)
    (closed : ∀ diagnostic ∈ (scan above).diagnostics,
      diagnostic.message ≠ "Unterminated string") :
    let lines := 1 + above.toList.count '\n'
    (scan (above ++ "\n" ++ below)).stream.toTokens =
        (scan above).stream.toTokens.dropLast ++
          (scan below).stream.toTokens.map (Token.moved lines) ∧
      (scan (above ++ "\n" ++ below)).diagnostics =
        (scan above).diagnostics ++ (scan below).diagnostics.map (Diagnostic.moved lines) := by
  intro lines
  have cut := pieces_append_below above below fun piece => role_ne_unterminated closed
  constructor
  · have unread : (scan (above ++ "\n" ++ below)).stream.unread =
        (scan above).stream.unread ++ (scan below).stream.unread.map (Token.moved lines) := by
      change (pieces _).filterMap Piece.token? = _
      rw [cut, List.filterMap_append, List.filterMap_cons_none rfl, List.filterMap_map]
      simp only [Function.comp_def, Piece.token?_moved, ← List.map_filterMap]
      rfl
    have final : (scan (above ++ "\n" ++ below)).stream.final =
        Token.moved lines (scan below).stream.final := by
      change Token.endOfInput (Scan.lastLine (pieces _)) =
        Token.moved lines (.endOfInput (Scan.lastLine (pieces _)))
      rw [(pieces_split _).lastLine_eq, (pieces_split _).lastLine_eq, Token.endOfInput,
        Token.endOfInput, Token.moved]
      simp only [String.toList_append, List.count_append]
      congr 1
      change 1 + (above.toList.count '\n' + 1 + below.toList.count '\n') = _
      omega
    rw [TokenStream.toTokens, unread, final, TokenStream.toTokens, TokenStream.toTokens,
      List.dropLast_concat, List.map_append, List.map_singleton, List.append_assoc]
  · change (pieces _).filterMap Piece.diagnostic? = _
    rw [cut, List.filterMap_append, List.filterMap_cons_none rfl, List.filterMap_map]
    simp only [Function.comp_def, Piece.diagnostic?_moved, ← List.map_filterMap]
    rfl

/-- The upper text ends in a number with a point and has a fault of its own, and the lower one
    leaves a string open. Its two lines are the third and the fourth of the whole text. -/
theorem scan_below_fault :
    let above := "\"a\nb\" @ 12."
    let below := "5 >\n= \"open"
    let whole := scan (above ++ "\n" ++ below)
    (∀ diagnostic ∈ (scan above).diagnostics, diagnostic.message ≠ "Unterminated string") ∧
      whole.stream.toTokens =
        (scan above).stream.toTokens.dropLast ++
          (scan below).stream.toTokens.map (Token.moved 2) ∧
      whole.diagnostics =
        (scan above).diagnostics ++ (scan below).diagnostics.map (Diagnostic.moved 2) ∧
      whole.stream.toTokens.map (fun token => (token.kind, token.line)) =
        [(.string, 2), (.number, 2), (.dot, 2), (.number, 3), (.greater, 3), (.equal, 4),
          (.endOfInput, 4)] ∧
      whole.diagnostics =
        [.lexical 2 "Unsupported character: @", .lexical 4 "Unterminated string"] := by
  intro above below whole
  have closed : ∀ diagnostic ∈ (scan above).diagnostics,
      diagnostic.message ≠ "Unterminated string" := by
    decide +kernel
  have lines : 1 + above.toList.count '\n' = 2 := by decide +kernel
  obtain ⟨tokens, diagnostics⟩ := scan_below above below closed
  rw [lines] at tokens diagnostics
  refine ⟨closed, tokens, diagnostics, ?_, ?_⟩
  · rw [tokens]
    decide +kernel
  · rw [diagnostics]
    decide +kernel

end Reckoner
