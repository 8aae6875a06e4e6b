import Reckoner.Proofs.Grammar.Remainder

/-! # The reader as a sequence of steps

What the reader does with an operand is decided by the first token of it. Where something is
opened or joined, reading goes on from what was read inside, so it is one reader behind another.
Whatever is proved of readers in turn needs to know no more than these steps.
-/

namespace Reckoner

namespace Grammar

variable {limit room : Nat} {level : Level} {reader : List Token → Reading}
  {next : Parsed → Reading}

/-- What goes on from an expression leaves an end of the tokens behind it. -/
def RecedesFrom (next : Parsed → Reading) : Prop :=
  ∀ parsed, Reading.rest (next parsed) <:+ parsed.rest

theorem bind_recedes (recedes : Recedes reader) (recedesFrom : RecedesFrom next) :
    Recedes fun tokens => (reader tokens).bind next := by
  intro tokens
  cases read : reader tokens with
  | error rejection =>
      simp only [read, Except.bind]
      exact recedes.of_error read
  | ok parsed =>
      simp only [read, Except.bind]
      exact (recedesFrom parsed).trans (recedes.of_ok read)

theorem unary_recedes (operator : Token) :
    RecedesFrom fun inner => (Parsed.unary operator inner).within limit := by
  intro inner
  rw [within_rest]
  exact List.suffix_rfl

/-- The token is the first one of an operand. -/
def BeginsOperand (token : Token) : Prop :=
  token.kind ∈ Kind.unaryOperators ∨ token.kind = .leftParen ∨ ∃ value, Terminal token value

theorem bind_eq_error {reading : Reading} {rejection : Rejection}
    (refused : reading.bind next = .error rejection) :
    reading = .error rejection ∨
      ∃ parsed, reading = .ok parsed ∧ next parsed = .error rejection := by
  cases reading with
  | error => exact .inl refused
  | ok parsed => exact .inr ⟨parsed, rfl, refused⟩

theorem chain_eq_bind (tokens : List Token) :
    chain limit level reader tokens = (reader tokens).bind (chainFrom limit level reader) := by
  unfold chain Except.bind
  split
  · rename_i rejection read
    rw [read]
  · rename_i left read
    rw [read]

theorem operand_eq_of_unary {operator : Token} (member : operator.kind ∈ Kind.unaryOperators)
    (tokens : List Token) : operand limit (room + 1) (operator :: tokens) =
      (operand limit room tokens).bind fun inner => (Parsed.unary operator inner).within limit := by
  rw [operand, if_pos ((Kind.isUnary_iff _).mpr member)]
  cases operand limit room tokens with
  | error => rfl
  | ok => rfl

theorem operand_eq_of_opening {opening : Token} (isOpening : opening.kind = .leftParen)
    (tokens : List Token) : operand limit (room + 1) (opening :: tokens) =
      (expression limit (operand limit room) tokens).bind (closeGroup limit) := by
  rw [operand, if_neg (by simp [isOpening, Kind.isUnary]), if_pos isOpening]
  cases expression limit (operand limit room) tokens with
  | error => rfl
  | ok => rfl

theorem operand_eq_of_full {opening : Token}
    (opens : opening.kind ∈ Kind.unaryOperators ∨ opening.kind = .leftParen)
    (tokens : List Token) :
    operand limit 0 (opening :: tokens) = .error ⟨.tooDeep, tokens⟩ := by
  rw [operand, if_pos (opens.imp_left (Kind.isUnary_iff _).mpr)]

theorem exists_cons_of_head? {property : Token → Prop} {tokens : List Token}
    (found : ¬ ∀ token ∈ tokens.head?, ¬ property token) :
    ∃ token rest, tokens = token :: rest ∧ property token := by
  simp only [not_forall, not_not] at found
  obtain ⟨token, isHead, holds⟩ := found
  obtain ⟨rest, rfl⟩ := List.head?_eq_some_iff.mp isHead
  exact ⟨token, rest, rfl, holds⟩

theorem operand_eq_of_missing {tokens : List Token}
    (missing : ∀ token ∈ tokens.head?, ¬ BeginsOperand token) :
    operand limit room tokens = .error ⟨.missingOperand, tokens⟩ := by
  cases tokens with
  | nil => cases room <;> rfl
  | cons token rest =>
      have begins := missing token rfl
      simp only [BeginsOperand, not_or, not_exists] at begins
      obtain ⟨notUnary, notOpening, noTerminal⟩ := begins
      rw [← Kind.isUnary_iff] at notUnary
      have refused : readLiteral token rest = .error ⟨.missingOperand, token :: rest⟩ := by
        unfold readLiteral
        split
        · rename_i value found
          exact (noTerminal value ((token.operandValue?_eq_some_iff value).mp found)).elim
        · rfl
      cases room with
      | zero => simpa [operand, notUnary, notOpening] using refused
      | succ room => simpa [operand, notUnary, notOpening] using refused

theorem operand_advances {token : Token} (begins : BeginsOperand token) (rest : List Token) :
    Reading.rest (operand limit room (token :: rest)) <:+ rest := by
  obtain member | isOpening | ⟨value, terminal⟩ := begins
  · cases room with
    | zero =>
        rw [operand_eq_of_full (.inl member)]
        exact List.suffix_rfl
    | succ room =>
        rw [operand_eq_of_unary member]
        exact bind_recedes (operand_recedes limit room) (unary_recedes token) rest
  · cases room with
    | zero =>
        rw [operand_eq_of_full (.inr isOpening)]
        exact List.suffix_rfl
    | succ room =>
        rw [operand_eq_of_opening isOpening]
        exact bind_recedes (expression_recedes (operand_recedes limit room))
          (closeGroup_recedes limit) rest
  · rw [operand_literal terminal]
    exact List.suffix_rfl

theorem closeGroup_of_unclosed {inner : Parsed}
    (unclosed : ∀ token ∈ inner.rest.head?, token.kind ≠ .rightParen) :
    closeGroup limit inner = .error ⟨.unclosedGroup, inner.rest⟩ := by
  unfold closeGroup
  split
  · rename_i isNext
    rw [isNext]
  · rename_i token rest isNext
    rw [if_neg (unclosed token (by simp [isNext])), isNext]

theorem closeGroup_of_closing {inner : Parsed} {closing : Token} {rest : List Token}
    (isNext : inner.rest = closing :: rest) (isClosing : closing.kind = .rightParen) :
    closeGroup limit inner = (inner.group rest).within limit := by
  simp only [closeGroup, isNext, isClosing, if_true]

end Grammar

end Reckoner
