import Reckoner.Proofs.Grammar.Invariant
import Reckoner.Proofs.Grammar.Statements

/-! # Calls and returns

Every call of the machine returns, and gives what the reader reads from the cursor on with as much
room as the depth leaves.
-/

namespace Reckoner

open Grammar

namespace Machine

/-- What the reader has for the procedure, with room for so much more to be opened. -/
def Procedure.read (room : Nat) : Procedure → List Token → Reading
  | .expression => Grammar.expression maxHeight (operand maxHeight room)
  | .phrase goal => goal.read maxHeight room

/-- The machine comes from the one configuration to the other, and no caller whose frame is in the
    stack gets its turn. -/
abbrev Inside (tokens : List Token) (stack : List Frame) : Config → Config → Prop :=
  Relation.ReflTransGen fun config later =>
    config.next? tokens = some later ∧ stack <:+ later.stack

/-- The machine returns to the stack with what was read, at the place where that ends. -/
inductive Gives (stream : TokenStream) (stack : List Frame) (depth : Nat) (config : Config) :
    Reading → Prop where
  | ok {cursor : Nat} {parsed : Parsed} :
      cursor ≤ stream.unread.length → stream.unread.drop cursor = parsed.rest →
      Inside stream.toTokens stack config
        ⟨⟨cursor, depth, parsed.height⟩, .back (.ok parsed.expr), stack⟩ →
      Gives stream stack depth config (.ok parsed)
  | error {last : State} {rejection : Rejection} :
      last.cursor ≤ stream.unread.length → stream.unread.drop last.cursor = rejection.rest →
      Inside stream.toTokens stack config
        ⟨last, .back (.error (.refused ⟨rejection.fault, stream.current rejection.rest⟩)), stack⟩ →
      Gives stream stack depth config (.error rejection)

/-- Wherever the procedure is called at this depth, it gives what the reader reads there. -/
def Answers (stream : TokenStream) (depth : Nat) (procedure : Procedure)
    (reader : List Token → Reading) : Prop :=
  ∀ ⦃cursor height : Nat⦄ ⦃stack : List Frame⦄ ⦃rest : List Token⦄,
    cursor ≤ stream.unread.length → stream.unread.drop cursor = rest →
    Gives stream stack depth ⟨⟨cursor, depth, height⟩, .call procedure, stack⟩ (reader rest)

section

variable {stream : TokenStream} {stack : List Frame} {depth cursor height : Nat}

theorem Inside.mono {tokens : List Token} {deeper : List Frame} {config later : Config}
    (above : stack <:+ deeper) (runs : Inside tokens deeper config later) :
    Inside tokens stack config later :=
  Relation.ReflTransGen.mono (fun _ _ goesOn => ⟨goesOn.1, above.trans goesOn.2⟩) _ _ runs

namespace Gives

variable {config later : Config} {reading : Reading} {inner : Nat} {frame : Frame}

theorem turn (turn : Turn stream.toTokens config later) (above : stack <:+ later.stack)
    (gives : Gives stream stack depth later reading) : Gives stream stack depth config reading := by
  have goesOn := And.intro turn.next?_eq above
  cases gives with
  | ok inside parts runs => exact .ok inside parts (.head goesOn runs)
  | error inside parts runs => exact .error inside parts (.head goesOn runs)

theorem unwind {rejection : Rejection}
    (gives : Gives stream (frame :: stack) inner config (.error rejection)) :
    Gives stream stack depth config (.error rejection) := by
  cases gives with
  | error inside parts runs =>
      have outside := Inside.mono (List.suffix_cons frame stack) runs
      exact .error inside parts (.tail outside ⟨Turn.unwind.next?_eq, List.suffix_rfl⟩)

theorem resume {parsed : Parsed} (gives : Gives stream (frame :: stack) inner config (.ok parsed))
    (goesOn : ∀ cursor, cursor ≤ stream.unread.length → stream.unread.drop cursor = parsed.rest →
      Gives stream stack depth
        ⟨⟨cursor, inner, parsed.height⟩, .back (.ok parsed.expr), frame :: stack⟩ reading) :
    Gives stream stack depth config reading := by
  cases gives with
  | ok inside parts runs =>
      have outside := Inside.mono (List.suffix_cons frame stack) runs
      cases goesOn _ inside parts with
      | ok inside' parts' runs' => exact .ok inside' parts' (outside.trans runs')
      | error inside' parts' runs' => exact .error inside' parts' (outside.trans runs')

theorem bind {next : Parsed → Reading} (gives : Gives stream (frame :: stack) inner config reading)
    (goesOn : ∀ parsed cursor, cursor ≤ stream.unread.length →
      stream.unread.drop cursor = parsed.rest → Gives stream stack depth
        ⟨⟨cursor, inner, parsed.height⟩, .back (.ok parsed.expr), frame :: stack⟩ (next parsed)) :
    Gives stream stack depth config (reading.bind next) := by
  cases reading with
  | error rejection => exact gives.unwind
  | ok parsed => exact gives.resume (goesOn parsed)

end Gives

theorem getElem?_of_drop {rest : List Token} (inside : cursor ≤ stream.unread.length)
    (parts : stream.unread.drop cursor = rest) :
    stream.toTokens[cursor]? = some (stream.current rest) := by
  rw [TokenStream.getElem?_toTokens inside, parts, TokenStream.current]

theorem current_eq_of_head? {rest : List Token} {token : Token} (isHead : token ∈ rest.head?) :
    stream.current rest = token := by
  obtain ⟨tokens, rfl⟩ := List.head?_eq_some_iff.mp isHead
  rfl

theorem exists_behind (closed : stream.final.kind = .endOfInput) {rest : List Token}
    (parts : stream.unread.drop cursor = rest)
    (notEnd : (stream.current rest).kind ≠ .endOfInput) :
    ∃ tokens, rest = stream.current rest :: tokens ∧ cursor + 1 ≤ stream.unread.length ∧
      stream.unread.drop (cursor + 1) = tokens := by
  cases rest with
  | nil => exact absurd closed notEnd
  | cons token tokens => exact ⟨tokens, rfl, TokenStream.drop_succ_of_drop parts⟩

variable {level : Level} {reader : List Token → Reading}

/-- Before an operator of its level the loop asks for the right operand, with the height of the
    left one put aside. -/
theorem right_operand (answers : Answers stream depth (.phrase level.operand) reader)
    (inside : cursor ≤ stream.unread.length) {operator : Token} {tokens : List Token}
    (parts : stream.unread.drop cursor = operator :: tokens)
    (isOperator : operator.kind.level? = some level) (left : Expr) :
    ∃ callee : Config, callee.stack = .second level left operator height :: stack ∧
      Turn stream.toTokens ⟨⟨cursor, depth, height⟩, .join level left, stack⟩ callee ∧
      Gives stream callee.stack depth callee (reader tokens) := by
  have here := getElem?_of_drop inside parts
  obtain ⟨inside', parts'⟩ := TokenStream.drop_succ_of_drop parts
  have member := (Kind.level?_eq_some_iff _ _).mp isOperator
  exact ⟨_, rfl, .operator here member, answers inside' parts'⟩

theorem join_gives (closed : stream.final.kind = .endOfInput)
    (answers : Answers stream depth (.phrase level.operand) reader) {left : Parsed}
    (inside : cursor ≤ stream.unread.length) (parts : stream.unread.drop cursor = left.rest) :
    Gives stream stack depth ⟨⟨cursor, depth, left.height⟩, .join level left.expr, stack⟩
      (chainFrom maxHeight level reader left) := by
  -- By induction on the turns of the loop. At its head the state has the height of the expression
  -- in hand, and behind a right operand the frame has it.
  fun_induction chainFrom maxHeight level reader left generalizing cursor with
  | case1 left isNext =>
      have here := getElem?_of_drop inside (parts.trans isNext)
      have noOperator : stream.final.kind ∉ level.operators := by
        rw [closed]
        cases level <;> simp [Level.operators]
      exact .turn (.noOperator here noOperator) List.suffix_rfl (.ok inside parts .refl)
  | case2 left operator tokens isNext isOperator rejection refused =>
      obtain ⟨callee, isStack, asks, gives⟩ :=
        right_operand answers inside (parts.trans isNext) isOperator left.expr
      rw [refused, isStack] at gives
      exact .turn asks (isStack ▸ List.suffix_cons _ _) gives.unwind
  | case3 left operator tokens isNext isOperator right read low ih =>
      obtain ⟨callee, isStack, asks, gives⟩ :=
        right_operand answers inside (parts.trans isNext) isOperator left.expr
      rw [read, isStack] at gives
      refine .turn asks (isStack ▸ List.suffix_cons _ _) (gives.resume ?_)
      intro cursor' inside' parts'
      exact .turn (.second low) List.suffix_rfl (ih inside' parts')
  | case4 left operator tokens isNext isOperator right read high =>
      obtain ⟨callee, isStack, asks, gives⟩ :=
        right_operand answers inside (parts.trans isNext) isOperator left.expr
      rw [read, isStack] at gives
      refine .turn asks (isStack ▸ List.suffix_cons _ _) (gives.resume ?_)
      intro cursor' inside' parts'
      have here := getElem?_of_drop inside' parts'
      exact .turn (.secondTall (Nat.lt_of_not_le high) here) List.suffix_rfl
        (.error inside' parts' .refl)
  | case5 left operator tokens isNext notOperator =>
      have here := getElem?_of_drop inside (parts.trans isNext)
      have noOperator := mt (Kind.level?_eq_some_iff _ _).mpr notOperator
      exact .turn (.noOperator here noOperator) List.suffix_rfl (.ok inside parts .refl)

theorem Answers.chain (closed : stream.final.kind = .endOfInput) (level : Level)
    (answers : Answers stream depth (.phrase level.operand) reader) :
    Answers stream depth (.phrase (.joined level)) (chain maxHeight level reader) := by
  intro cursor height stack rest inside parts
  rw [chain_eq_bind]
  refine .turn .joined (List.suffix_cons _ _) (.bind (answers inside parts) ?_)
  intro left cursor' inside' parts'
  exact .turn .first List.suffix_rfl (join_gives closed answers inside' parts')

theorem Answers.joined (closed : stream.final.kind = .endOfInput) {room : Nat}
    (answers : Answers stream depth (.phrase .unary) (operand maxHeight room)) (level : Level) :
    Answers stream depth (.phrase (.joined level)) ((Phrase.joined level).read maxHeight room) := by
  have factor := answers.chain closed .factor
  have term := factor.chain closed .term
  have comparison := term.chain closed .comparison
  cases level with
  | factor => exact factor
  | term => exact term
  | comparison => exact comparison
  | equality => exact comparison.chain closed .equality

theorem Answers.expression (closed : stream.final.kind = .endOfInput) {room : Nat}
    (answers : Answers stream depth (.phrase .unary) (operand maxHeight room)) :
    Answers stream depth .expression (expression maxHeight (operand maxHeight room)) := by
  intro cursor height stack rest inside parts
  exact .turn .expression List.suffix_rfl (answers.joined closed .equality inside parts)

theorem unary_gives {operator : Token} {operand : Parsed} (inside : cursor ≤ stream.unread.length)
    (parts : stream.unread.drop cursor = operand.rest) :
    Gives stream stack depth
      ⟨⟨cursor, depth + 1, operand.height⟩, .back (.ok operand.expr), .signed operator :: stack⟩
      ((Parsed.unary operator operand).within maxHeight) := by
  unfold Parsed.within
  split
  · rename_i low
    exact .turn (.signed low) List.suffix_rfl (.ok inside parts .refl)
  · rename_i high
    exact .turn (.signedTall (Nat.lt_of_not_le high) (getElem?_of_drop inside parts))
      List.suffix_rfl (.error inside parts .refl)

theorem group_gives (closed : stream.final.kind = .endOfInput) {inner : Parsed}
    (inside : cursor ≤ stream.unread.length) (parts : stream.unread.drop cursor = inner.rest) :
    Gives stream stack depth
      ⟨⟨cursor, depth + 1, inner.height⟩, .back (.ok inner.expr), .enclosed :: stack⟩
      (closeGroup maxHeight inner) := by
  have here := getElem?_of_drop inside parts
  by_cases isClosing : (stream.current inner.rest).kind = .rightParen
  · have notEnd : (stream.current inner.rest).kind ≠ .endOfInput := by simp [isClosing]
    obtain ⟨tokens, isNext, inside', parts'⟩ := exists_behind closed parts notEnd
    rw [closeGroup_of_closing isNext isClosing, Parsed.within]
    split
    · rename_i low
      exact .turn (.enclosed here isClosing low) List.suffix_rfl (.ok inside' parts' .refl)
    · rename_i high
      exact .turn (.enclosedTall here isClosing (Nat.lt_of_not_le high)
        (getElem?_of_drop inside' parts')) List.suffix_rfl (.error inside' parts' .refl)
  · rw [closeGroup_of_unclosed fun token isHead => current_eq_of_head? isHead ▸ isClosing]
    exact .turn (.unclosed here isClosing) List.suffix_rfl (.error inside parts .refl)

theorem primary_gives (closed : stream.final.kind = .endOfInput) {room : Nat}
    (share : depth + room = maxHeight) (answers : ∀ less, room = less + 1 →
      Answers stream (depth + 1) .expression (expression maxHeight (operand maxHeight less)))
    {rest : List Token} (inside : cursor ≤ stream.unread.length)
    (parts : stream.unread.drop cursor = rest)
    (notSign : (stream.current rest).kind ∉ Kind.unaryOperators) :
    Gives stream stack depth ⟨⟨cursor, depth, height⟩, .call (.phrase .primary), stack⟩
      (operand maxHeight room rest) := by
  have here := getElem?_of_drop inside parts
  by_cases begins : BeginsOperand (stream.current rest)
  · obtain ⟨tokens, isRest, inside', parts'⟩ :=
      exists_behind closed parts begins.kind_ne_endOfInput
    obtain isSign | isOpening | ⟨value, terminal⟩ := begins
    · exact absurd isSign notSign
    · cases room with
      | zero =>
          rw [isRest, operand_eq_of_full (.inr isOpening)]
          exact .turn (.openingFull here isOpening (Nat.le_of_eq share.symm)
            (getElem?_of_drop inside' parts')) List.suffix_rfl (.error inside' parts' .refl)
      | succ less =>
          rw [isRest, operand_eq_of_opening isOpening]
          refine .turn (.opening here isOpening (by omega)) (List.suffix_cons _ _)
            (.bind (answers less rfl inside' parts') ?_)
          intro inner cursor' inside'' parts''
          exact group_gives closed inside'' parts''
    · rw [isRest, operand_literal terminal]
      exact .turn (.literal here terminal) List.suffix_rfl (.ok inside' parts' .refl)
  · rw [operand_eq_of_missing fun token isHead => current_eq_of_head? isHead ▸ begins]
    simp only [BeginsOperand, not_or, not_exists] at begins
    exact .turn (.missing here begins.2.1 begins.2.2) List.suffix_rfl (.error inside parts .refl)

theorem unary_answers (closed : stream.final.kind = .endOfInput) (room : Nat) :
    ∀ depth, depth + room = maxHeight →
      Answers stream depth (.phrase .unary) (operand maxHeight room) := by
  -- By induction on the room. What is opened adds to the depth and takes from the room.
  induction room using Nat.strongRecOn with
  | ind room ih =>
      intro depth share cursor height stack rest inside parts
      have here := getElem?_of_drop inside parts
      by_cases isSign : (stream.current rest).kind ∈ Kind.unaryOperators
      · have notEnd := Token.AwaitsOperand.kind_ne_endOfInput (.inl isSign)
        obtain ⟨tokens, isRest, inside', parts'⟩ := exists_behind closed parts notEnd
        cases room with
        | zero =>
            rw [isRest, operand_eq_of_full (.inl isSign)]
            exact .turn (.signFull here isSign (Nat.le_of_eq share.symm)
              (getElem?_of_drop inside' parts')) List.suffix_rfl (.error inside' parts' .refl)
        | succ less =>
            rw [isRest, operand_eq_of_unary isSign]
            have answers := ih less (Nat.lt_succ_self less) (depth + 1) (by omega)
            refine .turn (.sign here isSign (by omega)) (List.suffix_cons _ _)
              (.bind (answers inside' parts') ?_)
            intro operand cursor' inside'' parts''
            exact unary_gives inside'' parts''
      · refine .turn (.unsigned here isSign) List.suffix_rfl
          (primary_gives closed share ?_ inside parts isSign)
        rintro less rfl
        exact (ih less (Nat.lt_succ_self less) (depth + 1) (by omega)).expression closed

theorem Config.Lawful.gives (closed : stream.final.kind = .endOfInput) {config : Config}
    (lawful : config.Lawful stream.toTokens) {procedure : Procedure}
    (isCall : config.control = .call procedure) :
    Gives stream config.stack config.state.depth config
      (procedure.read (maxHeight - config.state.depth)
        (stream.unread.drop config.state.cursor)) := by
  obtain ⟨⟨cursor, depth, height⟩, control, stack⟩ := config
  obtain rfl : control = .call procedure := isCall
  cases lawful with
  | call fits noSign =>
      have inside : cursor ≤ stream.unread.length := by
        have below := fits.cursor_lt
        simp only [TokenStream.toTokens, List.length_append, List.length_singleton] at below
        exact Nat.le_of_lt_succ below
      have share : depth + (maxHeight - depth) = maxHeight := Nat.add_sub_cancel' fits.depth_le
      have answers := unary_answers closed (maxHeight - depth) depth share
      cases procedure with
      | expression => exact answers.expression closed inside rfl
      | phrase goal =>
          cases goal with
          | joined level => exact answers.joined closed level inside rfl
          | unary => exact answers inside rfl
          | primary =>
              refine primary_gives closed share ?_ inside rfl
                (noSign rfl _ (getElem?_of_drop inside rfl))
              intro less isRoom
              exact (unary_answers closed less (depth + 1) (by omega)).expression closed

end

end Machine

end Reckoner
