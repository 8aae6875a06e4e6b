import Reckoner.Proofs.Source.Spacing

/-! # Lines by position

Pieces are told apart here by the characters of the source that they occupy, without counting
lines along the way. The line of a token is then the number of line breaks before its end, and
the line of a fault the number of those before its beginning, each and every time one more.
-/

namespace Reckoner

/-- The line of what stands at a position: one more than the line breaks before it. -/
def lineAt (source : List Char) (position : Nat) : Nat := 1 + (source.take position).count '\n'

/-- A piece by its place: the characters from `start` on that stand before `stop`. -/
structure Span where
  role : Role
  start : Nat
  stop : Nat
  deriving Repr, DecidableEq

/-- The source falls into these spans from `start` on, and each holds the first piece of what is
    left there. -/
inductive Spans (source : List Char) : Nat → List Span → Prop where
  | nil : Spans source source.length []
  | cons {start stop : Nat} {role : Role} {spans : List Span} : start < stop →
      FirstPiece (source.drop start) role (source.extract start stop) →
      Spans source stop spans → Spans source start (⟨role, start, stop⟩ :: spans)

namespace Span

/-- The piece that stands there. -/
def piece (source : List Char) (span : Span) : Piece :=
  ⟨lineAt source span.start, span.role, source.extract span.start span.stop⟩

/-- The token of a span is on the line on which the span ends. For a string that is the line of
    its closing quote, and any other token has only one line. -/
structure Holds (source : List Char) (span : Span) (token : Token) : Prop where
  lexeme : token.lexeme.toList = source.extract span.start span.stop
  line : token.line = lineAt source span.stop
  closing : token.kind = .string →
    source[span.stop - 1]? = some '"' ∧ token.line = lineAt source (span.stop - 1)
  oneLine : token.kind ≠ .string → token.line = lineAt source span.start

/-- The diagnostic of a fault is on the line on which the span begins. -/
inductive Blames (source : List Char) (span : Span) : Diagnostic → Prop where
  | unterminated : span.role = .fault .unterminatedString → source[span.start]? = some '"' →
      Blames source span (.lexical (lineAt source span.start) "Unterminated string")
  | unsupported {c : Char} : span.role = .fault (.unsupported c) →
      source[span.start]? = some c →
      Blames source span
        (.lexical (lineAt source span.start) ("Unsupported character: " ++ c.toString))

end Span

theorem take_append_extract (source : List Char) {start stop : Nat} (le : start ≤ stop) :
    source.take start ++ source.extract start stop = source.take stop := by
  rw [List.extract_eq_take_drop, ← List.take_add, Nat.add_sub_cancel' le]

theorem lineAt_le (source : List Char) {first later : Nat} (le : first ≤ later) :
    lineAt source first ≤ lineAt source later := by
  unfold lineAt
  rw [← take_append_extract source le, List.count_append]
  omega

theorem Span.endLine_piece (source : List Char) {span : Span} (le : span.start ≤ span.stop) :
    (span.piece source).endLine = lineAt source span.stop := by
  simp only [Piece.endLine, piece, lineAt, ← take_append_extract source le, List.count_append,
    Nat.add_assoc]

theorem FirstPiece.ne_nil {whole text : List Char} {role : Role}
    (first : FirstPiece whole role text) : text ≠ [] := by
  cases first with
  | lexeme longest => exact longest.lexeme.ne_nil
  | unterminated | unsupported => exact List.cons_ne_nil _ _

namespace Spans

variable {source : List Char} {start : Nat} {spans : List Span}

theorem start_le (isSpans : Spans source start spans) : start ≤ source.length := by
  induction isSpans with
  | nil => exact Nat.le_refl _
  | cons less _ _ ih => exact (Nat.le_of_lt less).trans ih

theorem unique {spans' : List Span} (one : Spans source start spans)
    (other : Spans source start spans') : spans = spans' := by
  induction one generalizing spans' with
  | nil =>
      cases other with
      | nil => rfl
      | cons less _ tail => exact absurd (Nat.lt_of_lt_of_le less tail.start_le) (Nat.lt_irrefl _)
  | @cons start stop role spans less first tail ih =>
      generalize atStart : start = start' at other
      cases other with
      | nil => exact absurd (atStart ▸ Nat.lt_of_lt_of_le less tail.start_le) (Nat.lt_irrefl _)
      | @cons _ stop' role' spans' less' first' tail' =>
          subst atStart
          obtain ⟨rfl, sameText⟩ := first.unique first'
          have sameLength := congrArg List.length sameText
          have inSource := tail.start_le
          have inSource' := tail'.start_le
          simp only [List.extract_eq_take_drop, List.length_take, List.length_drop] at sameLength
          obtain rfl : stop = stop' := by omega
          rw [ih tail']

theorem split (isSpans : Spans source start spans) :
    Split (source.take start) (source.drop start) (spans.map (Span.piece source)) := by
  induction isSpans with
  | nil => simpa using Split.nil
  | @cons start stop role spans less first _ ih =>
      have parts : source.drop start = source.extract start stop ++ source.drop stop := by
        rw [List.extract_eq_take_drop, ← Nat.add_sub_cancel' (Nat.le_of_lt less),
          ← List.drop_drop, Nat.add_sub_cancel_left, List.take_append_drop]
      refine .cons parts first.ne_nil first ?_
      rw [take_append_extract source (Nat.le_of_lt less)]
      exact ih

theorem exists_of_split {before whole : List Char} {pieces : List Piece}
    (split : Split before whole pieces) : ∃ spans, Spans (before ++ whole) before.length spans := by
  induction split with
  | @nil before => exact ⟨[], by simpa using (Spans.nil : Spans before before.length [])⟩
  | @cons before whole text rest role pieces parts nonempty first _ ih =>
      obtain ⟨spans, tail⟩ := ih
      rw [List.append_assoc, ← parts, List.length_append] at tail
      refine ⟨⟨role, before.length, before.length + text.length⟩ :: spans, .cons ?_ ?_ tail⟩
      · exact Nat.lt_add_of_pos_right (List.length_pos_of_ne_nil nonempty)
      · rw [List.extract_eq_take_drop, List.drop_left, Nat.add_sub_cancel_left, parts,
          List.take_left]
        exact parts ▸ first

theorem of_mem (isSpans : Spans source start spans) {span : Span} (member : span ∈ spans) :
    start ≤ span.start ∧ span.start < span.stop ∧ span.stop ≤ source.length ∧
      FirstPiece (source.drop span.start) span.role (source.extract span.start span.stop) := by
  induction isSpans with
  | nil => cases member
  | cons less first tail ih =>
      rcases List.mem_cons.mp member with rfl | inTail
      · exact ⟨Nat.le_refl _, less, tail.start_le, first⟩
      · obtain ⟨after, rest⟩ := ih inTail
        exact ⟨(Nat.le_of_lt less).trans after, rest⟩

theorem pairwise (isSpans : Spans source start spans) :
    spans.Pairwise fun span later => span.stop ≤ later.start := by
  induction isSpans with
  | nil => exact .nil
  | cons _ _ tail ih => exact .cons (fun later inTail => (tail.of_mem inTail).1) ih

end Spans

theorem Piece.Yields.kind_eq_string_iff {piece : Piece} {token : Token}
    (yields : piece.Yields token) (lexeme : Lexeme piece.role piece.text) :
    token.kind = .string ↔ piece.role = .string := by
  cases yields with
  | operator isOperator =>
      rw [isOperator] at lexeme ⊢
      cases lexeme with
      | operator member =>
          have noString : ∀ entry ∈ operatorSpellings, entry.2 ≠ .string := by decide
          exact iff_of_false (noString _ member) nofun
  | string isRole | whole isRole | decimal isRole | keyword isRole | identifier isRole =>
      simp [isRole]

theorem getElem?_of_take {source before : List Char} {stop : Nat} {c : Char}
    (inSource : stop ≤ source.length) (isTake : source.take stop = before ++ [c]) :
    source[stop - 1]? = some c ∧ source.take (stop - 1) = before := by
  have size := congrArg List.length isTake
  simp only [List.length_take, Nat.min_eq_left inSource, List.length_append,
    List.length_singleton] at size
  have parts := List.take_append_drop stop source
  rw [isTake, List.append_assoc] at parts
  have behind : stop - 1 = before.length := by omega
  rw [← parts, behind]
  simp

namespace Span

variable {source : List Char} {span : Span}

theorem text_eq_cons (source : List Char) {span : Span} {c : Char} {others : List Char}
    (isText : source.extract span.start span.stop = c :: others) :
    source[span.start]? = some c := by
  have isHead := congrArg List.head? isText
  rw [List.extract_eq_take_drop, List.head?_take, List.head?_drop] at isHead
  split at isHead
  · cases isHead
  · exact isHead

theorem exists_holds (less : span.start < span.stop) (inSource : span.stop ≤ source.length)
    (first : FirstPiece (source.drop span.start) span.role
      (source.extract span.start span.stop))
    (isToken : (span.piece source).isToken = true) :
    ∃ token, (span.piece source).token? = some token ∧ span.Holds source token := by
  have le := Nat.le_of_lt less
  have lexeme : Lexeme (span.piece source).role (span.piece source).text :=
    @FirstPiece.lexeme_of_isToken _ (span.piece source) first isToken
  obtain ⟨token, found, yields⟩ := Piece.token?_yields lexeme isToken
  have isString := yields.kind_eq_string_iff lexeme
  have line : token.line = lineAt source span.stop := by
    rw [Piece.line_of_token? found, endLine_piece source le]
  refine ⟨token, found, Piece.lexeme_of_token? found, line, fun string => ?_, fun noString => ?_⟩
  · rw [isString.mp string] at lexeme
    generalize isText : (span.piece source).text = text at lexeme
    cases lexeme with
    | @string body _ =>
        have isTake : source.take span.stop = (source.take span.start ++ '"' :: body) ++ ['"'] := by
          rw [← take_append_extract source le, List.append_assoc]
          exact congrArg _ isText
        obtain ⟨isQuote, before⟩ := getElem?_of_take inSource isTake
        refine ⟨isQuote, ?_⟩
        rw [line, lineAt, lineAt, before, isTake, List.count_append]
        rfl
  · -- Of the lexemes that are tokens only strings have line breaks in them.
    have noBreak : '\n' ∉ source.extract span.start span.stop := by
      intro inside
      have lineBreak : isSeparator '\n' = true := by decide
      rcases lexeme.role_of_separator lineBreak inside with role | role | role
      · rw [Piece.isToken, role] at isToken
        cases isToken
      · exact noString (isString.mpr role)
      · rw [Piece.isToken, role] at isToken
        cases isToken
    rw [line, lineAt, ← take_append_extract source le, List.count_append,
      List.count_eq_zero_of_not_mem noBreak]
    rfl

theorem exists_blames
    (first : FirstPiece (source.drop span.start) span.role
      (source.extract span.start span.stop))
    (isFault : (span.piece source).isFault = true) :
    ∃ diagnostic, (span.piece source).diagnostic? = some diagnostic ∧
      span.Blames source diagnostic := by
  obtain ⟨diagnostic, found, reports⟩ := Piece.diagnostic?_reports isFault
  refine ⟨diagnostic, found, ?_⟩
  obtain ⟨role, start, stop⟩ := span
  generalize isText : source.extract start stop = text at first
  generalize source.drop start = rest at first
  cases first with
  | lexeme longest => cases longest.lexeme <;> cases isFault
  | unterminated =>
      cases reports with
      | unterminated isRole => exact .unterminated isRole (text_eq_cons source isText)
      | unsupported isRole => cases isRole
  | unsupported =>
      cases reports with
      | unterminated isRole => cases isRole
      | unsupported isRole =>
          cases isRole
          exact .unsupported rfl (text_eq_cons source isText)

end Span

theorem exists_spans (source : String) :
    ∃ spans, Spans source.toList 0 spans ∧
      spans.map (Span.piece source.toList) = pieces source := by
  have split := pieces_split source
  obtain ⟨spans, isSpans⟩ := Spans.exists_of_split split
  exact ⟨spans, isSpans, (isSpans.split).unique split⟩

theorem Spans.lines_pairwise {source : List Char} {start : Nat} {spans : List Span}
    (isSpans : Spans source start spans) {α : Type} (place : Span → Nat) (found? : Span → Option α)
    (line : α → Nat) (within : ∀ span ∈ spans, span.start ≤ place span ∧ place span ≤ span.stop)
    (placed : ∀ span ∈ spans, ∀ a, found? span = some a → line a = lineAt source (place span)) :
    ((spans.filterMap found?).map line).Pairwise (· ≤ ·) := by
  rw [List.pairwise_map, List.pairwise_filterMap]
  refine isSpans.pairwise.imp_of_mem ?_
  intro span later inSpans inSpans' behind a found b found'
  rw [placed span inSpans a found, placed later inSpans' b found']
  exact lineAt_le source
    ((within span inSpans).2.trans (behind.trans (within later inSpans').1))

/-- Every token is on the line on which its last character stands, the end token on the last
    line, and every lexical diagnostic on the line of the character that it is about. The lines
    of the tokens never go back, nor do those of the diagnostics. -/
theorem scan_lines_are_exact (source : String) :
    ∃ spans, (∀ other, Spans source.toList 0 other ↔ other = spans) ∧
      (∃ tokens, (scan source).stream.toTokens =
          tokens ++ [.endOfInput (1 + source.toList.count '\n')] ∧
        List.Forall₂ (Span.Holds source.toList)
          (spans.filter fun span => (span.piece source.toList).isToken) tokens) ∧
      List.Forall₂ (Span.Blames source.toList)
        (spans.filter fun span => (span.piece source.toList).isFault) (scan source).diagnostics ∧
      ((scan source).stream.toTokens.map Token.line).Pairwise (· ≤ ·) ∧
      ((scan source).diagnostics.map Diagnostic.line).Pairwise (· ≤ ·) := by
  obtain ⟨spans, isSpans, arePieces⟩ := exists_spans source
  let token? (span : Span) := (span.piece source.toList).token?
  let diagnostic? (span : Span) := (span.piece source.toList).diagnostic?
  have tokens : (scan source).stream.unread = spans.filterMap token? := by
    change (pieces source).filterMap Piece.token? = _
    rw [← arePieces, List.filterMap_map]
    rfl
  have diagnostics : (scan source).diagnostics = spans.filterMap diagnostic? := by
    change (pieces source).filterMap Piece.diagnostic? = _
    rw [← arePieces, List.filterMap_map]
    rfl
  have final : (scan source).stream.toTokens =
      spans.filterMap token? ++ [.endOfInput (1 + source.toList.count '\n')] := by
    rw [← tokens, ← (pieces_split source).lastLine_eq]
    rfl
  have tokenLine (span : Span) (member : span ∈ spans) (token : Token)
      (found : token? span = some token) : token.line = lineAt source.toList span.stop := by
    rw [Piece.line_of_token? found, Span.endLine_piece _ (Nat.le_of_lt (isSpans.of_mem member).2.1)]
  refine ⟨spans, fun other => ⟨fun others => others.unique isSpans, fun same => same ▸ isSpans⟩,
    ⟨_, final, ?_⟩, ?_, ?_, ?_⟩
  · refine forall₂_filter_filterMap (fun span member isToken => ?_)
      fun _ _ => Piece.token?_eq_none
    obtain ⟨-, less, inSource, first⟩ := isSpans.of_mem member
    exact Span.exists_holds less inSource first isToken
  · rw [diagnostics]
    exact forall₂_filter_filterMap
      (fun span member => Span.exists_blames (isSpans.of_mem member).2.2.2)
      fun _ _ => Piece.diagnostic?_eq_none
  · rw [final, List.map_append, List.pairwise_append]
    refine ⟨isSpans.lines_pairwise Span.stop token? Token.line (fun span member =>
      ⟨Nat.le_of_lt (isSpans.of_mem member).2.1, Nat.le_refl _⟩) tokenLine,
      List.pairwise_singleton _ _, ?_⟩
    intro line inLines last isLast
    obtain ⟨token, member, rfl⟩ := List.mem_map.mp inLines
    obtain ⟨span, inSpans, found⟩ := List.mem_filterMap.mp member
    rw [tokenLine span inSpans token found, List.mem_singleton.mp isLast]
    have le := lineAt_le source.toList (isSpans.of_mem inSpans).2.2.1
    rwa [lineAt, lineAt, List.take_length] at le
  · rw [diagnostics]
    exact isSpans.lines_pairwise Span.start diagnostic? Diagnostic.line
      (fun span member => ⟨Nat.le_refl _, Nat.le_of_lt (isSpans.of_mem member).2.1⟩)
      (fun span _ diagnostic found => Piece.line_of_diagnostic? found)

end Reckoner
