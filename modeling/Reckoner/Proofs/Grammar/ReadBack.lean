import Reckoner.Proofs.Evaluation.Legality
import Reckoner.Proofs.Number.Written
import Reckoner.Proofs.Source.Spacing

/-! # Reading trees back

A tree is written as the tokens that it is made of, from left to right, with a space between
neighbours. If the grammar can produce its shape and a source can hold its tokens, then scanning
and parsing what is written give the tree again. Only the lines of its operators may change: a
string takes its line feeds along.
-/

namespace Reckoner

/-- The token that is written for a reserved word. -/
def Keyword.token (word : Keyword) : Token := ⟨.keyword word, word.text, none, 0⟩

namespace Value

/-- The token that is written for a value. -/
def token : Value → Token
  | .number n => ⟨.number, n.text, some (.number n), 0⟩
  | .text s => ⟨.string, "\"" ++ s ++ "\"", some (.text s), 0⟩
  | .bool true => Keyword.trueWord.token
  | .bool false => Keyword.falseWord.token
  | .nil => Keyword.nilWord.token

/-- The values that a single token stands for: a minus sign would be a token of its own, and a
    quote would end the string. -/
def Writable : Value → Prop
  | .number n => ∃ magnitude, n = .finite .positive magnitude
  | .text s => '"' ∉ s.toList
  | .bool _ | .nil => True

end Value

/-- An operator as it is spelled. -/
def Token.Canonical (token : Token) : Prop :=
  (token.lexeme.toList, token.kind) ∈ operatorSpellings ∧ token.literal = none
  deriving Decidable

/-- How tightly a phrase binds. -/
def Phrase.tightness : Phrase → Nat
  | .joined .equality => 0
  | .joined .comparison => 1
  | .joined .term => 2
  | .joined .factor => 3
  | .unary => 4
  | .primary => 5

namespace Expr

/-- The values at the leaves, from left to right. -/
def leaves : Expr → List Value
  | .literal value => [value]
  | .group inner => inner.leaves
  | .unary _ operand => operand.leaves
  | .binary left _ right => left.leaves ++ right.leaves

/-- The tokens that the tree is made of. -/
def tokens : Expr → List Token
  | .literal value => [value.token]
  | .group inner => ⟨.leftParen, "(", none, 0⟩ :: (inner.tokens ++ [⟨.rightParen, ")", none, 0⟩])
  | .unary operator operand => operator :: operand.tokens
  | .binary left operator right => left.tokens ++ operator :: right.tokens

/-- The tree as source text. -/
def written (expr : Expr) : String := Token.spaced expr.tokens

/-- The tree with its operators taken off their lines. -/
def unplaced : Expr → Expr
  | .literal value => .literal value
  | .group inner => .group inner.unplaced
  | .unary operator operand => .unary operator.unplaced operand.unplaced
  | .binary left operator right => .binary left.unplaced operator.unplaced right.unplaced

/-- The tree can stand where the phrase is required: its root binds at least as tightly, and so
    does every operand at its own place. -/
def Fits (phrase : Phrase) : Expr → Prop
  | .literal _ => True
  | .group inner => inner.Fits (.joined .equality)
  | .unary operator operand => phrase.tightness ≤ Phrase.unary.tightness ∧
      operator.kind ∈ Kind.unaryOperators ∧ operand.Fits .unary
  | .binary left operator right => ∃ level : Level,
      phrase.tightness ≤ (Phrase.joined level).tightness ∧ operator.kind ∈ level.operators ∧
        left.Fits (.joined level) ∧ right.Fits level.operand

@[simp] theorem height_unplaced (expr : Expr) : expr.unplaced.height = expr.height := by
  induction expr with
  | literal => rfl
  | group inner ih => simp only [unplaced, height, ih]
  | unary operator operand ih => simp only [unplaced, height, ih]
  | binary left operator right ihLeft ihRight => simp only [unplaced, height, ihLeft, ihRight]

end Expr

theorem Token.Canonical.spelled {token : Token} (canonical : token.Canonical) :
    token.Spelled := by
  obtain ⟨kind, lexeme, literal, line⟩ := token
  obtain ⟨member, rfl⟩ := canonical
  refine ⟨.operator kind, .operator member, fun line => ?_⟩
  simp [Piece.token?, unplaced]

theorem Keyword.lexeme_text (word : Keyword) : Lexeme .word word.text.toList := by
  obtain ⟨first, others, isText, starts, parts⟩ : ∃ first others,
      word.text.toList = first :: others ∧ isWordStart first = true ∧
        others.all isWordPart = true := by
    cases word <;> exact ⟨_, _, rfl, rfl, rfl⟩
  rw [isText]
  exact .word ((isWordStart_iff first).mp starts)
    fun c member => (isWordPart_iff c).mp (List.all_eq_true.mp parts c member)

theorem Keyword.spelled (word : Keyword) : word.token.Spelled := by
  have isWord : Kind.ofWord word.text = .keyword word := by
    cases word <;> decide
  refine ⟨.word, word.lexeme_text, fun line => ?_⟩
  simp [Piece.token?, Token.unplaced, token, isWord]

theorem Value.Writable.spelled {value : Value} (writable : value.Writable) :
    value.token.Spelled := by
  cases value with
  | number n =>
      obtain ⟨magnitude, rfl⟩ := writable
      obtain ⟨lexeme, standsFor⟩ := Number.text_positive magnitude
      refine ⟨.number, lexeme, fun line => ?_⟩
      simp [Piece.token?, Token.unplaced, token, standsFor]
  | text s =>
      have noQuote : ∀ c ∈ s.toList, c ≠ '"' := fun c member isQuote =>
        writable (isQuote ▸ member)
      have quoted : (Value.text s).token.lexeme.toList = '"' :: (s.toList ++ ['"']) := by
        simp [token]
      have whole : String.ofList ('"' :: (s.toList ++ ['"'])) = (Value.text s).token.lexeme := by
        rw [← quoted, String.ofList_toList]
      refine ⟨.string, quoted ▸ .string noQuote, fun line => ?_⟩
      rw [quoted]
      simp only [Piece.token?, Option.map_some, Token.unplaced, whole]
      simp [token]
  | bool b => cases b <;> exact Keyword.spelled _
  | nil => exact Keyword.spelled _

theorem Expr.spelled_of_mem_tokens {expr : Expr}
    (operators : ∀ operator ∈ expr.operators, operator.Canonical)
    (leaves : ∀ value ∈ expr.leaves, value.Writable) :
    ∀ token ∈ expr.tokens, token.Spelled := by
  induction expr with
  | literal value => simpa [tokens] using (leaves value (by simp [Expr.leaves])).spelled
  | group inner ih =>
      have opening : Token.Spelled ⟨.leftParen, "(", none, 0⟩ :=
        Token.Canonical.spelled ⟨by decide, rfl⟩
      have closing : Token.Spelled ⟨.rightParen, ")", none, 0⟩ :=
        Token.Canonical.spelled ⟨by decide, rfl⟩
      simpa [tokens, or_imp, forall_and, opening, closing] using ih operators leaves
  | unary operator operand ih =>
      obtain ⟨canonical, others⟩ := List.forall_mem_cons.mp operators
      exact List.forall_mem_cons.mpr ⟨canonical.spelled, ih others leaves⟩
  | binary left operator right ihLeft ihRight =>
      obtain ⟨inLeft, others⟩ := List.forall_mem_append.mp operators
      obtain ⟨canonical, inRight⟩ := List.forall_mem_cons.mp others
      obtain ⟨leavesLeft, leavesRight⟩ := List.forall_mem_append.mp leaves
      exact List.forall_mem_append.mpr ⟨ihLeft inLeft leavesLeft,
        List.forall_mem_cons.mpr ⟨canonical.spelled, ihRight inRight leavesRight⟩⟩

theorem Value.terminal_of_token {value : Value} {token : Token}
    (same : token.unplaced = value.token.unplaced) : Terminal token value := by
  obtain ⟨kind, -, literal⟩ := (Token.unplaced_eq_iff _ _).mp same
  cases value with
  | number n => exact .number kind literal
  | text s => exact .string kind literal
  | bool b =>
      cases b with
      | true => exact .trueWord kind
      | false => exact .falseWord kind
  | nil => exact .nilWord kind

namespace Phrase

theorem tightness_le (phrase : Phrase) : phrase.tightness ≤ primary.tightness := by
  cases phrase with
  | joined level => cases level <;> decide
  | unary | primary => decide

theorem eq_of_tightness {phrase phrase' : Phrase} (same : phrase.tightness = phrase'.tightness) :
    phrase = phrase' := by
  unfold tightness at same
  split at same <;> split at same <;> first | rfl | cases same

@[simp] theorem tightness_operand (level : Level) :
    level.operand.tightness = (joined level).tightness + 1 := by
  cases level <;> rfl

end Phrase

theorem Derives.loosen {phrase own : Phrase} {tokens : List Token} {expr : Expr}
    (derivation : Derives own tokens expr) (tighter : phrase.tightness ≤ own.tightness) :
    Derives phrase tokens expr := by
  -- By induction on how many rules lie between the two phrases.
  obtain ⟨gap, isGap⟩ := Nat.le.dest tighter
  induction gap generalizing phrase with
  | zero => exact Phrase.eq_of_tightness isGap ▸ derivation
  | succ gap ih =>
      cases phrase with
      | joined level =>
          have next := Phrase.tightness_operand level
          exact .single (ih (by omega) (by omega))
      | unary =>
          have next : Phrase.primary.tightness = Phrase.unary.tightness + 1 := rfl
          exact .primary (ih (by omega) (by omega))
      | primary =>
          have last := own.tightness_le
          omega

/-- Tokens like those of a tree are derived to a tree like it. -/
theorem Expr.Fits.exists_derives {expr : Expr} {phrase : Phrase} (fits : expr.Fits phrase)
    {tokens : List Token} (same : tokens.map Token.unplaced = expr.tokens.map Token.unplaced) :
    ∃ read, Derives phrase tokens read ∧ read.unplaced = expr.unplaced := by
  -- The tokens fall apart where those of the tree do, and every operand is required at its place.
  induction expr generalizing phrase tokens with
  | literal value =>
      obtain ⟨token, rfl, sameToken⟩ := List.map_eq_singleton_iff.mp same
      have derivation := Derives.literal (Value.terminal_of_token sameToken)
      exact ⟨_, derivation.loosen phrase.tightness_le, rfl⟩
  | group inner ih =>
      simp only [Expr.tokens, List.map_cons, List.map_append, List.map_nil] at same
      obtain ⟨opening, others, rfl, isOpening, same⟩ := List.map_eq_cons_iff.mp same
      obtain ⟨inside, last, rfl, sameInside, same⟩ := List.map_eq_append_iff.mp same
      obtain ⟨closing, rfl, isClosing⟩ := List.map_eq_singleton_iff.mp same
      obtain ⟨read, derivation, sameInner⟩ := ih fits sameInside
      have group := Derives.group (Token.kind_eq_of_unplaced isOpening) derivation
        (Token.kind_eq_of_unplaced isClosing)
      exact ⟨_, group.loosen phrase.tightness_le, by simp only [Expr.unplaced, sameInner]⟩
  | unary operator operand ih =>
      obtain ⟨tighter, member, fitsOperand⟩ := fits
      obtain ⟨token, others, rfl, sameOperator, sameOthers⟩ := List.map_eq_cons_iff.mp same
      obtain ⟨read, derivation, sameOperand⟩ := ih fitsOperand sameOthers
      have sameKind := Token.kind_eq_of_unplaced sameOperator
      have unary := Derives.unary (sameKind ▸ member) derivation
      exact ⟨_, unary.loosen tighter, by simp only [Expr.unplaced, sameOperator, sameOperand]⟩
  | binary left operator right ihLeft ihRight =>
      obtain ⟨level, tighter, member, fitsLeft, fitsRight⟩ := fits
      simp only [Expr.tokens, List.map_cons, List.map_append] at same
      obtain ⟨before, others, rfl, sameBefore, same⟩ := List.map_eq_append_iff.mp same
      obtain ⟨token, behind, rfl, sameOperator, sameBehind⟩ := List.map_eq_cons_iff.mp same
      obtain ⟨readLeft, derivesLeft, sameLeft⟩ := ihLeft fitsLeft sameBefore
      obtain ⟨readRight, derivesRight, sameRight⟩ := ihRight fitsRight sameBehind
      have sameKind := Token.kind_eq_of_unplaced sameOperator
      have joined := Derives.joined derivesLeft (sameKind ▸ member) derivesRight
      refine ⟨_, joined.loosen tighter, ?_⟩
      simp only [Expr.unplaced, sameOperator, sameLeft, sameRight]

theorem Derives.parse_eq {stream : TokenStream} {expr : Expr}
    (derivation : Derives (.joined .equality) stream.unread expr) (low : expr.height ≤ 128) :
    stream.parse = .ok expr := by
  have low : expr.height ≤ Grammar.maxHeight := low
  have leads := derivation.leads low Grammar.maxHeight (by omega)
  have ends : (Phrase.joined .equality).EndsBefore [] := by simp [Phrase.EndsBefore]
  have read := leads.read_eq ends
  rw [List.append_nil] at read
  exact (TokenStream.parse_eq_ok_iff _ _).mpr ⟨_, _, read⟩

/-- A tree that the grammar can produce and a source can hold is read back from what is written
    of it, without an error; at most its operators come to stand on other lines. -/
theorem parse_scan_written (expr : Expr) (low : expr.height ≤ 128)
    (fits : expr.Fits (.joined .equality))
    (operators : ∀ operator ∈ expr.operators, operator.Canonical)
    (leaves : ∀ value ∈ expr.leaves, value.Writable) :
    (scan expr.written).diagnostics = [] ∧
      ∃ read, (scan expr.written).stream.parse = .ok read ∧ read.unplaced = expr.unplaced := by
  obtain ⟨clean, sameTokens⟩ := scan_spaced (Expr.spelled_of_mem_tokens operators leaves)
  obtain ⟨read, derivation, same⟩ := fits.exists_derives sameTokens
  have sameHeight : read.height = expr.height := by
    rw [← read.height_unplaced, same, expr.height_unplaced]
  exact ⟨clean, read, derivation.parse_eq (sameHeight ▸ low), same⟩

/-- Terms that group to the left, a string with a line feed and with what would be a comment
    outside of it, and all kinds of leaves. -/
theorem parse_scan_written_mixed :
    let minus : Token := ⟨.minus, "-", none, 7⟩
    let half : Magnitude := ⟨1022 * binade, by decide⟩
    let product : Expr := .binary (.literal (.number (.finite .positive half)))
      ⟨.star, "*", none, 7⟩ (.literal (.text " a\n// b"))
    let terms : Expr := .binary (.binary (.unary minus (.group product)) minus
      (.literal (.bool true))) minus (.literal (.number (.finite .positive .zero)))
    let expr : Expr := .binary terms ⟨.equalEqual, "==", none, 7⟩
      (.unary ⟨.bang, "!", none, 7⟩ (.literal .nil))
    (expr.height ≤ 128 ∧ expr.Fits (.joined .equality) ∧
      (∀ operator ∈ expr.operators, operator.Canonical) ∧
      ∀ value ∈ expr.leaves, value.Writable) ∧
    (scan expr.written).diagnostics = [] ∧
      ∃ read, (scan expr.written).stream.parse = .ok read ∧ read.unplaced = expr.unplaced := by
  intro minus half product terms expr
  have low : expr.height ≤ 128 := by decide
  have fitsProduct : product.Fits (.joined .equality) :=
    ⟨.factor, by decide, by decide, trivial, trivial⟩
  have fitsTerms : terms.Fits (.joined .equality) :=
    ⟨.term, by decide, by decide,
      ⟨.term, by decide, by decide, ⟨by decide, by decide, fitsProduct⟩, trivial⟩, trivial⟩
  have fits : expr.Fits (.joined .equality) :=
    ⟨.equality, by decide, by decide, fitsTerms, by decide, by decide, trivial⟩
  have operators : ∀ operator ∈ expr.operators, operator.Canonical := by decide
  have leaves : ∀ value ∈ expr.leaves, value.Writable := by
    simp [expr, terms, product, Expr.leaves, Value.Writable]
  exact ⟨⟨low, fits, operators, leaves⟩, parse_scan_written expr low fits operators leaves⟩

end Reckoner
