import Mathlib.Data.List.Forall2
import Mathlib.Data.List.TakeWhile
import Reckoner.Proofs.Source.LongestMatch
import Reckoner.Source.Scan

/-! # Splitting a source

A source splits into pieces in exactly one way if every piece is to be the first piece of what
is left. Scanning finds that way, keeps a token of every piece that has one and a diagnostic of
every fault, and puts one end token behind them.
-/

namespace Reckoner

/-- The whole text, which stands behind `before`, is these pieces one after the other. -/
inductive Split : List Char → List Char → List Piece → Prop where
  | nil {before : List Char} : Split before [] []
  | cons {before whole text rest : List Char} {role : Role} {pieces : List Piece} :
      whole = text ++ rest → text ≠ [] → FirstPiece whole role text →
      Split (before ++ text) rest pieces →
      Split before whole (⟨1 + before.count '\n', role, text⟩ :: pieces)

namespace Split

theorem unique {before whole : List Char} {pieces pieces' : List Piece}
    (one : Split before whole pieces) (other : Split before whole pieces') : pieces = pieces' := by
  induction one generalizing pieces' with
  | nil =>
      cases other with
      | nil => rfl
      | cons parts nonempty => simp [nonempty] at parts
  | @cons before whole text rest role pieces parts nonempty first _ ih =>
      cases other with
      | nil => simp [nonempty] at parts
      | @cons _ _ text' rest' role' pieces' parts' _ first' tail' =>
          obtain ⟨rfl, rfl⟩ := first.unique first'
          obtain rfl : rest = rest' := List.append_cancel_left (parts.symm.trans parts')
          rw [ih tail']

theorem flatten_eq {before whole : List Char} {pieces : List Piece}
    (split : Split before whole pieces) : (pieces.map Piece.text).flatten = whole := by
  induction split with
  | nil => rfl
  | cons parts _ _ _ ih => rw [List.map_cons, List.flatten_cons, ih, parts]

theorem first_of_mem {before whole : List Char} {pieces : List Piece}
    (split : Split before whole pieces) {piece : Piece} (member : piece ∈ pieces) :
    ∃ rest, FirstPiece rest piece.role piece.text := by
  induction split with
  | nil => simp at member
  | cons _ _ first _ ih =>
      rcases List.mem_cons.mp member with rfl | inTail
      · exact ⟨_, first⟩
      · exact ih inTail

theorem endLine_last {before whole : List Char} {pieces : List Piece}
    (split : Split before whole pieces) {last : Piece} (isLast : pieces.getLast? = some last) :
    last.endLine = 1 + (before ++ whole).count '\n' := by
  induction split with
  | nil => simp at isLast
  | @cons before whole text rest role pieces parts _ _ tail ih =>
      cases tail with
      | nil =>
          obtain rfl : _ = last := by simpa using isLast
          simp [Piece.endLine, parts, Nat.add_assoc]
      | cons =>
          rw [List.getLast?_cons_cons] at isLast
          rw [ih isLast, parts, List.append_assoc]

theorem lastLine_eq {whole : List Char} {pieces : List Piece} (split : Split [] whole pieces) :
    Scan.lastLine pieces = 1 + whole.count '\n' := by
  unfold Scan.lastLine
  split
  · rename_i last isLast
    exact split.endLine_last isLast
  · rename_i isEmpty
    obtain rfl := List.getLast?_eq_none_iff.mp isEmpty
    have noText := split.flatten_eq
    simp [← noText]

end Split

theorem cutPieces_split (cut : List Piece) (line : Nat) (whole before : List Char)
    (here : line = 1 + before.count '\n') :
    ∃ pieces, cutPieces cut line whole = cut.reverse ++ pieces ∧ Split before whole pieces := by
  -- What is cut goes behind what was cut before, and is split from where the text begins.
  fun_induction cutPieces cut line whole generalizing before with
  | case1 cut line => exact ⟨[], (List.append_nil _).symm, .nil⟩
  | case2 cut line c rest extent piece ih =>
      have endsHere : piece.endLine = 1 + (before ++ piece.text).count '\n' := by
        simp [Piece.endLine, piece, here, Nat.add_assoc]
      obtain ⟨pieces, isCut, split⟩ := ih (before ++ piece.text) endsHere
      refine ⟨piece :: pieces, by simp [isCut], ?_⟩
      have whole : c :: rest = piece.text ++ rest.drop extent.more := by simp [piece]
      have isPiece : piece = ⟨1 + before.count '\n', extent.role, piece.text⟩ := by
        simp [piece, here]
      rw [isPiece]
      exact .cons whole (List.cons_ne_nil _ _) (Extent.ofText_cuts c rest) split

theorem pieces_split (source : String) : Split [] source.toList (pieces source) := by
  obtain ⟨cut, isCut, split⟩ := cutPieces_split [] 1 source.toList [] rfl
  rw [pieces, isCut]
  exact split

theorem Split.scan_eq {source : String} {cut : List Piece} (split : Split [] source.toList cut) :
    scan source = .ofPieces cut := by
  rw [scan, (pieces_split source).unique split]

namespace Piece

/-- The token that a piece is to give: its lexeme is the piece, it stands on the line on which
    the piece ends, and strings and numbers carry what they stand for. -/
inductive Yields (piece : Piece) : Token → Prop where
  | operator {kind : Kind} : piece.role = .operator kind →
      Yields piece ⟨kind, String.ofList piece.text, none, piece.endLine⟩
  | string {body : List Char} : piece.role = .string → piece.text = '"' :: (body ++ ['"']) →
      Yields piece ⟨.string, String.ofList piece.text, some (.text (String.ofList body)),
        piece.endLine⟩
  | whole : piece.role = .number → IsDigits piece.text →
      Yields piece ⟨.number, String.ofList piece.text,
        some (.number (Decimal.toNumber ⟨Nat.ofDigitChars 10 piece.text 0, 0⟩)), piece.endLine⟩
  | decimal {whole fraction : List Char} : piece.role = .number →
      piece.text = whole ++ '.' :: fraction → IsDigits whole → IsDigits fraction →
      Yields piece ⟨.number, String.ofList piece.text, some (.number (Decimal.toNumber
        ⟨Nat.ofDigitChars 10 (whole ++ fraction) 0, fraction.length⟩)), piece.endLine⟩
  | keyword {word : Keyword} : piece.role = .word → word.text.toList = piece.text →
      Yields piece ⟨.keyword word, String.ofList piece.text, none, piece.endLine⟩
  | identifier : piece.role = .word → (∀ word : Keyword, word.text.toList ≠ piece.text) →
      Yields piece ⟨.identifier, String.ofList piece.text, none, piece.endLine⟩

/-- The diagnostic that a piece is to give, on the line on which the piece begins. -/
inductive Reports (piece : Piece) : Diagnostic → Prop where
  | unterminated : piece.role = .fault .unterminatedString →
      Reports piece (.lexical piece.line "Unterminated string")
  | unsupported {c : Char} : piece.role = .fault (.unsupported c) →
      Reports piece (.lexical piece.line ("Unsupported character: " ++ c.toString))

def isToken (piece : Piece) : Bool :=
  match piece.role with
  | .operator _ | .string | .number | .word => true
  | .comment | .separator | .fault _ => false

def isFault (piece : Piece) : Bool :=
  match piece.role with
  | .fault _ => true
  | _ => false

theorem ofText_whole {digits : List Char} (isDigits : IsDigits digits) :
    Decimal.ofText digits = ⟨Nat.ofDigitChars 10 digits 0, 0⟩ := by
  have all := isDigits.all_isDigit
  simp [Decimal.ofText, List.takeWhile_eq_self_iff.mpr all, List.dropWhile_eq_nil_iff.mpr all]

theorem ofText_decimal {whole fraction : List Char} (isDigits : IsDigits whole) :
    Decimal.ofText (whole ++ '.' :: fraction) =
      ⟨Nat.ofDigitChars 10 (whole ++ fraction) 0, fraction.length⟩ := by
  have all := isDigits.all_isDigit
  have noDigit : ¬ ('.' : Char).isDigit = true := by decide
  simp only [Decimal.ofText, List.takeWhile_append_of_pos all, List.dropWhile_append_of_pos all,
    List.takeWhile_cons_of_neg noDigit, List.dropWhile_cons_of_neg noDigit, List.append_nil,
    List.drop_one, List.tail_cons]

theorem ofWord_yields {piece : Piece} (isWord : piece.role = .word) :
    piece.Yields ⟨.ofWord (String.ofList piece.text), String.ofList piece.text, none,
      piece.endLine⟩ := by
  unfold Kind.ofWord
  split
  · rename_i word found
    have spelled := List.find?_some found
    simp only [beq_iff_eq] at spelled
    exact .keyword isWord (by rw [spelled, String.toList_ofList])
  · rename_i notFound
    refine .identifier isWord fun word spelled => ?_
    have different := List.find?_eq_none.mp notFound word (by cases word <;> decide)
    exact different (by rw [← spelled]; simp)

theorem token?_yields {piece : Piece} (lexeme : Lexeme piece.role piece.text)
    (isToken : piece.isToken = true) :
    ∃ token, piece.token? = some token ∧ piece.Yields token := by
  obtain ⟨line, role, text⟩ := piece
  change Lexeme role text at lexeme
  cases lexeme with
  | operator => exact ⟨_, rfl, .operator rfl⟩
  | @string body _ =>
      have between : (('"' :: (body ++ ['"'])).drop 1).dropLast = body := by simp
      refine ⟨_, rfl, ?_⟩
      simp only [between]
      exact .string rfl rfl
  | whole digits =>
      refine ⟨_, rfl, ?_⟩
      simp only [ofText_whole digits]
      exact .whole rfl digits
  | decimal digits places =>
      refine ⟨_, rfl, ?_⟩
      simp only [ofText_decimal digits]
      exact .decimal rfl rfl digits places
  | word => exact ⟨_, rfl, ofWord_yields rfl⟩
  | comment | separator => cases isToken

theorem Yields.kind_ne_endOfInput {piece : Piece} {token : Token} (yields : piece.Yields token)
    (lexeme : Lexeme piece.role piece.text) : token.kind ≠ .endOfInput := by
  cases yields with
  | operator isOperator =>
      rw [isOperator] at lexeme
      cases lexeme with
      | operator member =>
          have noEnd : ∀ entry ∈ operatorSpellings, entry.2 ≠ .endOfInput := by decide
          exact noEnd _ member
  | string | whole | decimal | keyword | identifier => exact nofun

theorem token?_eq_none {piece : Piece} (notToken : piece.isToken = false) :
    piece.token? = none := by
  unfold isToken at notToken
  unfold token?
  split <;> simp_all

theorem diagnostic?_reports {piece : Piece} (isFault : piece.isFault = true) :
    ∃ diagnostic, piece.diagnostic? = some diagnostic ∧ piece.Reports diagnostic := by
  unfold Piece.isFault at isFault
  split at isFault
  · rename_i fault isRole
    refine ⟨.lexical piece.line fault.message, by simp [diagnostic?, isRole], ?_⟩
    cases fault with
    | unterminatedString => exact .unterminated isRole
    | unsupported c => exact .unsupported isRole
  · cases isFault

theorem diagnostic?_eq_none {piece : Piece} (notFault : piece.isFault = false) :
    piece.diagnostic? = none := by
  unfold isFault at notFault
  unfold diagnostic?
  split <;> simp_all

theorem lexeme_of_token? {piece : Piece} {token : Token} (found : piece.token? = some token) :
    token.lexeme.toList = piece.text := by
  unfold token? at found
  split at found <;> cases found <;> exact String.toList_ofList

theorem line_of_token? {piece : Piece} {token : Token} (found : piece.token? = some token) :
    token.line = piece.endLine := by
  unfold token? at found
  split at found <;> cases found <;> rfl

theorem line_of_diagnostic? {piece : Piece} {diagnostic : Diagnostic}
    (found : piece.diagnostic? = some diagnostic) : diagnostic.line = piece.line := by
  unfold diagnostic? at found
  split at found <;> cases found
  rfl

end Piece

theorem FirstPiece.lexeme_of_isToken {whole : List Char} {piece : Piece}
    (first : FirstPiece whole piece.role piece.text) (isToken : piece.isToken = true) :
    Lexeme piece.role piece.text := by
  obtain ⟨line, role, text⟩ := piece
  change FirstPiece whole role text at first
  cases first with
  | lexeme longest => exact longest.lexeme
  | unterminated | unsupported => cases isToken

/-- What is kept of a list is related to the elements that are to be kept, in order. -/
theorem forall₂_filter_filterMap {α β : Type} {keeps : α → Bool} {keep : α → Option β}
    {related : α → β → Prop} {list : List α}
    (kept : ∀ a ∈ list, keeps a = true → ∃ b, keep a = some b ∧ related a b)
    (left : ∀ a ∈ list, keeps a = false → keep a = none) :
    List.Forall₂ related (list.filter keeps) (list.filterMap keep) := by
  induction list with
  | nil => exact .nil
  | cons a list ih =>
      have tail := ih (fun b member => kept b (List.mem_cons_of_mem a member))
        (fun b member => left b (List.mem_cons_of_mem a member))
      cases keepsFirst : keeps a with
      | true =>
          obtain ⟨b, isKept, isRelated⟩ := kept a List.mem_cons_self keepsFirst
          rw [List.filter_cons_of_pos keepsFirst, List.filterMap_cons_some isKept]
          exact .cons isRelated tail
      | false =>
          have isLeft := left a List.mem_cons_self keepsFirst
          rw [List.filter_cons_of_neg (by simp [keepsFirst]), List.filterMap_cons_none isLeft]
          exact tail

/-- Scanning splits a source into longest matches, in the only possible way, and keeps exactly
    the tokens and the diagnostics of the pieces. -/
theorem scan_is_longest_match (source : String) :
    ∃ pieces, (∀ other, Split [] source.toList other ↔ other = pieces) ∧
      (pieces.map Piece.text).flatten = source.toList ∧
      (∃ tokens, (scan source).stream.toTokens =
          tokens ++ [.endOfInput (1 + source.toList.count '\n')] ∧
        (∀ token ∈ tokens, token.kind ≠ .endOfInput) ∧
        List.Forall₂ Piece.Yields (pieces.filter Piece.isToken) tokens) ∧
      List.Forall₂ Piece.Reports (pieces.filter Piece.isFault) (scan source).diagnostics := by
  have split := pieces_split source
  have lexeme {piece : Piece} (member : piece ∈ pieces source) (isToken : piece.isToken = true) :
      Lexeme piece.role piece.text := by
    obtain ⟨rest, first⟩ := split.first_of_mem member
    exact first.lexeme_of_isToken isToken
  have tokens : List.Forall₂ Piece.Yields ((pieces source).filter Piece.isToken)
      (scan source).stream.unread :=
    forall₂_filter_filterMap (fun piece member isToken =>
      Piece.token?_yields (lexeme member isToken) isToken) fun _ _ => Piece.token?_eq_none
  refine ⟨pieces source,
    fun other => ⟨fun isSplit => isSplit.unique split, fun same => same ▸ split⟩, split.flatten_eq,
    ⟨(scan source).stream.unread, ?_, ?_, tokens⟩, ?_⟩
  · rw [← split.lastLine_eq]
    rfl
  · intro token member
    obtain ⟨piece, inPieces, found⟩ := List.mem_filterMap.mp member
    cases isToken : piece.isToken with
    | false => simp [Piece.token?_eq_none isToken] at found
    | true =>
        have isLexeme := lexeme inPieces isToken
        obtain ⟨token', found', yields⟩ := Piece.token?_yields isLexeme isToken
        obtain rfl : token = token' := Option.some.inj (found.symm.trans found')
        exact yields.kind_ne_endOfInput isLexeme
  · exact forall₂_filter_filterMap (fun _ _ => Piece.diagnostic?_reports)
      fun _ _ => Piece.diagnostic?_eq_none

end Reckoner
