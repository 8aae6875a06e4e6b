import Reckoner.Proofs.Grammar.Steps

/-! # Phrases that break off

Where the reader refuses, it stands in the middle of a phrase: behind some finished operands,
behind operators that wait for another one, inside parentheses that are still open. What it
has read up to there is a phrase that broke off, and could have become a whole one. How it
broke off tells which fault is reported.
-/

namespace Reckoner

open Grammar

namespace Token

/-- The token is read as an operator or as an opening parenthesis, so that an operand has to
    follow. The kind of a token tells what it is read as. -/
def AwaitsOperand (token : Token) : Prop :=
  token.kind ∈ Kind.unaryOperators ∨ token.kind ∈ Kind.binaryOperators ∨ token.kind = .leftParen

/-- The token is read as an operand by itself or as a closing parenthesis. -/
def EndsOperand (token : Token) : Prop :=
  (∃ value, Terminal token value) ∨ token.kind = .rightParen

theorem EndsOperand.not_awaitsOperand {token : Token} (ends : token.EndsOperand) :
    ¬ token.AwaitsOperand := by
  obtain ⟨value, terminal⟩ | isClosing := ends
  · cases terminal with
    | trueWord kind | falseWord kind | nilWord kind | number kind _ | string kind _ =>
        simp [AwaitsOperand, kind, Kind.unaryOperators, Kind.binaryOperators]
  · simp [AwaitsOperand, isClosing, Kind.unaryOperators, Kind.binaryOperators]

theorem EndsOperand.kind_ne_endOfInput {token : Token} (ends : token.EndsOperand) :
    token.kind ≠ .endOfInput := by
  obtain ⟨value, terminal⟩ | isClosing := ends
  · cases terminal with
    | trueWord kind | falseWord kind | nilWord kind | number kind _ | string kind _ =>
        simp [kind]
  · simp [isClosing]

theorem AwaitsOperand.kind_ne_endOfInput {token : Token} (awaits : token.AwaitsOperand) :
    token.kind ≠ .endOfInput := by
  intro isEnd
  simp [AwaitsOperand, isEnd, Kind.unaryOperators, Kind.binaryOperators] at awaits

theorem awaitsOperand_of_level {token : Token} {level : Level}
    (member : token.kind ∈ level.operators) : token.AwaitsOperand :=
  .inr (.inl ((Kind.mem_binaryOperators_iff _).mpr ⟨level, member⟩))

end Token

/-- The last token exists and has the property. -/
def EndsWith (property : Token → Prop) (tokens : List Token) : Prop :=
  ∃ front last, tokens = front ++ [last] ∧ property last

theorem EndsWith.append_left {property : Token → Prop} {tokens : List Token}
    (endsWith : EndsWith property tokens) (before : List Token) :
    EndsWith property (before ++ tokens) := by
  obtain ⟨front, last, rfl, holds⟩ := endsWith
  exact ⟨before ++ front, last, (List.append_assoc _ _ _).symm, holds⟩

theorem EndsWith.cons {property : Token → Prop} {tokens : List Token}
    (endsWith : EndsWith property tokens) (first : Token) : EndsWith property (first :: tokens) :=
  endsWith.append_left [first]

namespace Derives

variable {phrase : Phrase} {tokens : List Token} {expr : Expr}

theorem endsWith_endsOperand (derivation : Derives phrase tokens expr) :
    EndsWith Token.EndsOperand tokens := by
  induction derivation with
  | single _ ih | primary _ ih => exact ih
  | joined _ _ _ _ ih => exact (ih.cons _).append_left _
  | unary _ _ ih => exact ih.cons _
  | @group tokens opening closing _ _ _ isClosing _ =>
      exact ⟨opening :: tokens, closing, rfl, .inr isClosing⟩
  | @literal token value terminal => exact ⟨[], token, rfl, .inl ⟨value, terminal⟩⟩

theorem kind_ne_endOfInput (derivation : Derives phrase tokens expr) :
    ∀ token ∈ tokens, token.kind ≠ .endOfInput := by
  induction derivation with
  | single _ ih | primary _ ih => exact ih
  | joined _ member _ ihBefore ihBehind =>
      have operator := (Token.awaitsOperand_of_level member).kind_ne_endOfInput
      exact List.forall_mem_append.mpr ⟨ihBefore, List.forall_mem_cons.mpr ⟨operator, ihBehind⟩⟩
  | unary member _ ih =>
      have operator := Token.AwaitsOperand.kind_ne_endOfInput (.inl member)
      exact List.forall_mem_cons.mpr ⟨operator, ih⟩
  | group isOpening _ isClosing ih => simpa [isOpening, isClosing, or_imp, forall_and] using ih
  | literal terminal =>
      have notEnd := Token.EndsOperand.kind_ne_endOfInput (.inl ⟨_, terminal⟩)
      simpa using notEnd

theorem expression (derivation : Derives .unary tokens expr) :
    Derives (.joined .equality) tokens expr :=
  .single (.single (.single (.single derivation)))

theorem height_le_length (derivation : Derives phrase tokens expr) :
    expr.height ≤ tokens.length := by
  induction derivation with
  | single _ ih | primary _ ih => exact ih
  | joined => simp only [Expr.height, List.length_append, List.length_cons]; omega
  | unary => simp only [Expr.height, List.length_cons]; omega
  | group =>
      simp only [Expr.height, List.length_cons, List.length_append, List.length_nil]
      omega
  | literal => exact Nat.le_refl 1

end Derives

/-- The tokens that were read of a phrase when it broke off, with the fault for it. `room` is
    how many unary operators and parentheses could still be opened. -/
inductive Interrupted (limit : Nat) : (room : Nat) → Phrase → List Token → SyntaxFault → Prop where
  /-- No operand is begun. -/
  | missing {room : Nat} : Interrupted limit room .unary [] .missingOperand
  /-- One more is opened than there is room for. -/
  | full {opening : Token} :
      opening.kind ∈ Kind.unaryOperators ∨ opening.kind = .leftParen →
      Interrupted limit 0 .unary [opening] .tooDeep
  /-- The phrase is whole but too tall. -/
  | tall {room : Nat} {phrase : Phrase} {tokens : List Token} {expr : Expr} :
      Derives phrase tokens expr → limit < expr.height →
      Interrupted limit room phrase tokens .tooDeep
  | unary {room : Nat} {operator : Token} {tokens : List Token} {fault : SyntaxFault} :
      operator.kind ∈ Kind.unaryOperators → Interrupted limit room .unary tokens fault →
      Interrupted limit (room + 1) .unary (operator :: tokens) fault
  | inside {room : Nat} {opening : Token} {tokens : List Token} {fault : SyntaxFault} :
      opening.kind = .leftParen → Interrupted limit room (.joined .equality) tokens fault →
      Interrupted limit (room + 1) .unary (opening :: tokens) fault
  /-- Only the closing parenthesis is missing. -/
  | unclosed {room : Nat} {opening : Token} {tokens : List Token} {inner : Expr} :
      opening.kind = .leftParen → Derives (.joined .equality) tokens inner →
      Interrupted limit (room + 1) .unary (opening :: tokens) .unclosedGroup
  | first {room : Nat} {level : Level} {tokens : List Token} {fault : SyntaxFault} :
      Interrupted limit room level.operand tokens fault →
      Interrupted limit room (.joined level) tokens fault
  | later {room : Nat} {level : Level} {before behind : List Token} {operator : Token}
      {left : Expr} {fault : SyntaxFault} :
      Derives (.joined level) before left → operator.kind ∈ level.operators →
      Interrupted limit room level.operand behind fault →
      Interrupted limit room (.joined level) (before ++ operator :: behind) fault

namespace Interrupted

variable {limit room : Nat} {phrase : Phrase} {tokens : List Token} {fault : SyntaxFault}

theorem kind_ne_endOfInput (broken : Interrupted limit room phrase tokens fault) :
    ∀ token ∈ tokens, token.kind ≠ .endOfInput := by
  induction broken with
  | missing => simp
  | full opens =>
      have opening := Token.AwaitsOperand.kind_ne_endOfInput (opens.imp_right .inr)
      simpa using opening
  | tall derivation _ => exact derivation.kind_ne_endOfInput
  | unary member _ ih =>
      have operator := Token.AwaitsOperand.kind_ne_endOfInput (.inl member)
      exact List.forall_mem_cons.mpr ⟨operator, ih⟩
  | inside isOpening _ ih => exact List.forall_mem_cons.mpr ⟨by simp [isOpening], ih⟩
  | unclosed isOpening derivation =>
      exact List.forall_mem_cons.mpr ⟨by simp [isOpening], derivation.kind_ne_endOfInput⟩
  | first _ ih => exact ih
  | later derivation member _ ih =>
      have operator := (Token.awaitsOperand_of_level member).kind_ne_endOfInput
      exact List.forall_mem_append.mpr
        ⟨derivation.kind_ne_endOfInput, List.forall_mem_cons.mpr ⟨operator, ih⟩⟩

/-- An operand is missed at the start or right behind a token that asks for one. -/
theorem endsWith_awaitsOperand (broken : Interrupted limit room phrase tokens .missingOperand) :
    tokens = [] ∨ EndsWith Token.AwaitsOperand tokens := by
  generalize isMissing : SyntaxFault.missingOperand = fault at broken
  induction broken with
  | missing => exact .inl rfl
  | full | tall | unclosed => cases isMissing
  | @unary _ operator _ _ member _ ih =>
      obtain rfl | endsWith := ih isMissing
      · exact .inr ⟨[], operator, rfl, .inl member⟩
      · exact .inr (endsWith.cons operator)
  | @inside _ opening _ _ isOpening _ ih =>
      obtain rfl | endsWith := ih isMissing
      · exact .inr ⟨[], opening, rfl, .inr (.inr isOpening)⟩
      · exact .inr (endsWith.cons opening)
  | first _ ih => exact ih isMissing
  | @later _ _ before _ operator _ _ _ member _ ih =>
      obtain rfl | endsWith := ih isMissing
      · exact .inr ⟨before, operator, rfl, Token.awaitsOperand_of_level member⟩
      · exact .inr ((endsWith.cons operator).append_left before)

theorem endsWith_endsOperand (broken : Interrupted limit room phrase tokens .unclosedGroup) :
    EndsWith Token.EndsOperand tokens := by
  generalize isUnclosed : SyntaxFault.unclosedGroup = fault at broken
  induction broken with
  | missing | full | tall => cases isUnclosed
  | unary _ _ ih | inside _ _ ih => exact (ih isUnclosed).cons _
  | unclosed _ derivation => exact derivation.endsWith_endsOperand.cons _
  | first _ ih => exact ih isUnclosed
  | later _ _ _ ih => exact ((ih isUnclosed).cons _).append_left _

/-- It takes more tokens than one of the limits to meet it. -/
theorem min_lt_length (broken : Interrupted limit room phrase tokens .tooDeep) :
    min limit room < tokens.length := by
  generalize isTooDeep : SyntaxFault.tooDeep = fault at broken
  induction broken with
  | missing | unclosed => cases isTooDeep
  | full => simp
  | tall derivation high => have := derivation.height_le_length; omega
  | unary _ _ ih | inside _ _ ih =>
      have := ih isTooDeep
      simp only [List.length_cons]
      omega
  | first _ ih => exact ih isTooDeep
  | later _ _ _ ih =>
      have := ih isTooDeep
      simp only [List.length_append, List.length_cons]
      omega

/-- Whatever has been read could have become a whole phrase: the missing operand and the
    missing parentheses are put behind it. -/
theorem exists_completion (broken : Interrupted limit room phrase tokens fault) :
    ∃ more expr, Derives phrase (tokens ++ more) expr := by
  let operand : Token := ⟨.keyword .nilWord, "nil", none, 1⟩
  let closing : Token := ⟨.rightParen, ")", none, 1⟩
  have isOperand : Derives .unary [operand] (.literal .nil) := .primary (.literal (.nilWord rfl))
  induction broken with
  | missing => exact ⟨[operand], _, isOperand⟩
  | full opens =>
      obtain member | isOpening := opens
      · exact ⟨[operand], _, .unary member isOperand⟩
      · exact ⟨[operand, closing], _, .primary (.group isOpening isOperand.expression rfl)⟩
  | @tall _ _ tokens expr derivation _ =>
      refine ⟨[], expr, ?_⟩
      rwa [List.append_nil]
  | unary member _ ih =>
      obtain ⟨more, expr, derivation⟩ := ih
      exact ⟨more, _, .unary member derivation⟩
  | @inside _ opening tokens _ isOpening _ ih =>
      obtain ⟨more, expr, derivation⟩ := ih
      refine ⟨more ++ [closing], .group expr, ?_⟩
      rw [List.cons_append, ← List.append_assoc]
      exact .primary (.group isOpening derivation rfl)
  | unclosed isOpening derivation =>
      exact ⟨[closing], _, .primary (.group isOpening derivation rfl)⟩
  | first _ ih =>
      obtain ⟨more, expr, derivation⟩ := ih
      exact ⟨more, expr, .single derivation⟩
  | @later _ _ _ _ operator left _ before member _ ih =>
      obtain ⟨more, right, derivation⟩ := ih
      refine ⟨more, .binary left operator right, ?_⟩
      rw [List.append_assoc, List.cons_append]
      exact .joined before member derivation

end Interrupted

namespace Phrase

/-- What the reader refuses is a phrase that breaks off where the refusal is placed. -/
def Breaks (limit room : Nat) (phrase : Phrase) (reader : List Token → Reading) : Prop :=
  ∀ tokens rejection, reader tokens = .error rejection →
    ∃ used, tokens = used ++ rejection.rest ∧ Interrupted limit room phrase used rejection.fault

end Phrase

namespace Grammar

variable {limit room : Nat} {level : Level} {reader : List Token → Reading}

theorem chainFrom_breaks (sound : level.operand.Sound limit reader)
    (breaks : level.operand.Breaks limit room reader) {tokens : List Token} {left : Parsed}
    (begun : (Phrase.joined level).ReadFrom limit tokens left) {rejection : Rejection}
    (refused : chainFrom limit level reader left = .error rejection) :
    ∃ used, tokens = used ++ rejection.rest ∧
      Interrupted limit room (.joined level) used rejection.fault := by
  fun_induction chainFrom limit level reader left with
  | case1 => cases refused
  | case2 left operator rest next isOperator rejection' read =>
      cases refused
      have member := (Kind.level?_eq_some_iff _ _).mp isOperator
      obtain ⟨before, parts, derivation⟩ := begun.derived
      obtain ⟨behind, behindParts, broken⟩ := breaks rest rejection read
      refine ⟨before ++ operator :: behind, ?_, .later derivation member broken⟩
      rw [parts, next, behindParts]
      simp
  | case3 left operator rest next isOperator right read low ih =>
      have member := (Kind.level?_eq_some_iff _ _).mp isOperator
      exact ih (begun.joined next member (sound rest right read).1 low) refused
  | case4 left operator rest next isOperator right read high =>
      cases refused
      have member := (Kind.level?_eq_some_iff _ _).mp isOperator
      obtain ⟨before, parts, derivation⟩ := begun.derived
      have reading := (sound rest right read).1
      obtain ⟨behind, behindParts, behindDerivation⟩ := reading.derived
      refine ⟨before ++ operator :: behind, ?_,
        .tall (.joined derivation member behindDerivation) ?_⟩
      · rw [parts, next, behindParts]
        simp
      · simp only [Parsed.binary, begun.height_eq, reading.height_eq] at high
        exact Nat.lt_of_not_le high
  | case5 => cases refused

theorem chain_breaks (sound : level.operand.Sound limit reader)
    (breaks : level.operand.Breaks limit room reader) :
    (Phrase.joined level).Breaks limit room (chain limit level reader) := by
  intro tokens rejection refused
  unfold chain at refused
  split at refused
  · rename_i rejection' read
    cases refused
    obtain ⟨used, parts, broken⟩ := breaks tokens rejection read
    exact ⟨used, parts, .first broken⟩
  · rename_i left read
    exact chainFrom_breaks sound breaks (sound tokens left read).1.single refused

theorem expression_breaks (sound : Phrase.unary.Sound limit reader)
    (breaks : Phrase.unary.Breaks limit room reader) :
    (Phrase.joined .equality).Breaks limit room (expression limit reader) := by
  have factor := @chain_sound limit .factor _ sound
  have term := @chain_sound limit .term _ factor
  have comparison := @chain_sound limit .comparison _ term
  have factorBreaks := @chain_breaks limit room .factor _ sound breaks
  have termBreaks := @chain_breaks limit room .term _ factor factorBreaks
  have comparisonBreaks := @chain_breaks limit room .comparison _ term termBreaks
  exact @chain_breaks limit room .equality _ comparison comparisonBreaks

theorem within_eq_error {parsed : Parsed} {rejection : Rejection}
    (refused : parsed.within limit = .error rejection) :
    limit < parsed.height ∧ rejection = ⟨.tooDeep, parsed.rest⟩ := by
  unfold Parsed.within at refused
  split at refused
  · cases refused
  · rename_i high
    exact ⟨Nat.lt_of_not_le high, (Except.error.inj refused).symm⟩

theorem closeGroup_breaks {opening : Token} {tokens : List Token} {inner : Parsed}
    {rejection : Rejection} (isOpening : opening.kind = .leftParen)
    (reading : (Phrase.joined .equality).ReadFrom limit tokens inner)
    (refused : closeGroup limit inner = .error rejection) :
    ∃ used, opening :: tokens = used ++ rejection.rest ∧
      Interrupted limit (room + 1) .unary used rejection.fault := by
  obtain ⟨used, parts, derivation⟩ := reading.derived
  by_cases unclosed : ∀ token ∈ inner.rest.head?, token.kind ≠ .rightParen
  · rw [closeGroup_of_unclosed unclosed] at refused
    cases refused
    exact ⟨opening :: used, by rw [parts]; rfl, .unclosed isOpening derivation⟩
  · obtain ⟨closing, rest, isNext, isClosing⟩ := exists_cons_of_head? unclosed
    rw [closeGroup_of_closing isNext isClosing] at refused
    obtain ⟨high, rfl⟩ := within_eq_error refused
    refine ⟨opening :: (used ++ [closing]), ?_,
      .tall (.primary (.group isOpening derivation isClosing)) ?_⟩
    · rw [parts, isNext]
      simp [Parsed.group]
    · simp only [Parsed.group, reading.height_eq] at high
      exact high

theorem unary_breaks {operator : Token} {tokens : List Token} {inner : Parsed}
    {rejection : Rejection} (member : operator.kind ∈ Kind.unaryOperators)
    (reading : Phrase.unary.ReadFrom limit tokens inner)
    (refused : (Parsed.unary operator inner).within limit = .error rejection) :
    ∃ used, operator :: tokens = used ++ rejection.rest ∧
      Interrupted limit room .unary used rejection.fault := by
  obtain ⟨high, rfl⟩ := within_eq_error refused
  obtain ⟨used, parts, derivation⟩ := reading.derived
  refine ⟨operator :: used, by rw [parts]; rfl, .tall (.unary member derivation) ?_⟩
  simp only [Parsed.unary, reading.height_eq] at high
  exact high

theorem operand_breaks (positive : 0 < limit) (room : Nat) :
    Phrase.unary.Breaks limit room (operand limit room) := by
  induction room using Nat.strongRecOn with
  | ind room ih =>
      intro tokens rejection refused
      by_cases missing : ∀ token ∈ tokens.head?, ¬ BeginsOperand token
      · rw [operand_eq_of_missing missing] at refused
        cases refused
        exact ⟨[], rfl, .missing⟩
      · obtain ⟨token, rest, rfl, member | isOpening | ⟨value, terminal⟩⟩ :=
          exists_cons_of_head? missing
        · cases room with
          | zero =>
              rw [operand_eq_of_full (.inl member)] at refused
              cases refused
              exact ⟨[token], rfl, .full (.inl member)⟩
          | succ room =>
              rw [operand_eq_of_unary member] at refused
              obtain inside | ⟨inner, read, tall⟩ := bind_eq_error refused
              · obtain ⟨used, rfl, broken⟩ := ih room (Nat.lt_succ_self room) rest rejection inside
                exact ⟨token :: used, rfl, .unary member broken⟩
              · exact unary_breaks member (operand_sound positive room rest inner read).1 tall
        · cases room with
          | zero =>
              rw [operand_eq_of_full (.inr isOpening)] at refused
              cases refused
              exact ⟨[token], rfl, .full (.inr isOpening)⟩
          | succ room =>
              have sound := operand_sound positive room
              have breaks := expression_breaks sound (ih room (Nat.lt_succ_self room))
              rw [operand_eq_of_opening isOpening] at refused
              obtain inside | ⟨inner, read, unclosed⟩ := bind_eq_error refused
              · obtain ⟨used, rfl, broken⟩ := breaks rest rejection inside
                exact ⟨token :: used, rfl, .inside isOpening broken⟩
              · have reading := (expression_sound sound rest inner read).1
                exact closeGroup_breaks isOpening reading unclosed
        · rw [operand_literal terminal] at refused
          cases refused

theorem readWithin_breaks (positive : 0 < limit) :
    (Phrase.joined .equality).Breaks limit limit (readWithin limit) :=
  expression_breaks (operand_sound positive limit) (operand_breaks positive limit)

end Grammar

end Reckoner
