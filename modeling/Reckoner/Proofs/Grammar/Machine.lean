import Reckoner.Proofs.Grammar.Interruption

/-! # The reader as a machine

The rules of the grammar as procedures that share one state: a cursor into the tokens, a count of
the unary operators and parentheses that are open, and the height of the last expression. Every
call writes over it, and a procedure that breaks off leaves it as it is. What a caller has still
to do behind a call is kept on a stack of its own, so one turn of the machine goes from one call,
loop head or return to the next.

Looking at a token out of range and closing what is not open are failures of their own here. A
machine that is built well never meets them.
-/

namespace Reckoner

open Grammar

/-- A fault, with the offending token. -/
structure Refusal where
  fault : SyntaxFault
  token : Token
  deriving Repr, DecidableEq

def Refusal.diagnostic (refusal : Refusal) : Diagnostic :=
  let location :=
    if refusal.token.kind = .endOfInput then .atEnd else .atLexeme refusal.token.lexeme
  .syntactic refusal.token.line location refusal.fault.message

namespace Machine

structure State where
  cursor : Nat
  /-- How many unary operators and parentheses are open. -/
  depth : Nat
  /-- The height of the last expression that was built. -/
  height : Nat
  deriving Repr, DecidableEq

/-- Why a procedure breaks off. -/
inductive Stop where
  | refused (refusal : Refusal)
  | outOfRange
  | underflow
  deriving Repr, DecidableEq

abbrev Move := EStateM Stop State

section

variable (tokens : List Token)

def tokenAt (place : Nat) : Move Token :=
  match tokens[place]? with
  | some token => return token
  | none => throw .outOfRange

def peek : Move Token := do tokenAt tokens (← get).cursor

def previous : Move Token := do tokenAt tokens ((← get).cursor - 1)

/-- Go on by one token, unless it is an end token. -/
def advance : Move Token := do
  unless (← peek tokens).kind = .endOfInput do
    modify fun state => { state with cursor := state.cursor + 1 }
  previous tokens

def matchAny (kinds : List Kind) : Move Bool := do
  if (← peek tokens).kind ∈ kinds then
    let _ ← advance tokens
    return true
  else
    return false

def refuse {α : Type} (fault : SyntaxFault) : Move α := do
  throw (.refused ⟨fault, ← peek tokens⟩)

def consume (kind : Kind) (fault : SyntaxFault) : Move Token := do
  if (← peek tokens).kind = kind then advance tokens else refuse tokens fault

/-- Open a unary operator or a parenthesis, unless too many are open. -/
def descend : Move Unit := do
  if maxHeight ≤ (← get).depth then refuse tokens .tooDeep
  else modify fun state => { state with depth := state.depth + 1 }

/-- Close what was opened last. -/
def ascend : Move Unit := do
  if (← get).depth = 0 then throw .underflow
  else modify fun state => { state with depth := state.depth - 1 }

/-- Note the height of a node on top of its tallest child, unless that is too tall. -/
def grow (childHeight : Nat) : Move Unit := do
  modify fun state => { state with height := childHeight + 1 }
  if maxHeight < (← get).height then refuse tokens .tooDeep

end

inductive Procedure where
  | expression
  | phrase (phrase : Phrase)
  deriving Repr, DecidableEq

/-- What a caller has still to do. A call that is the last thing to do leaves nothing. -/
inductive Frame where
  /-- Go on to the operators of a level behind the first operand. -/
  | first (level : Level)
  /-- Join a right operand to the left one, whose height was put aside. -/
  | second (level : Level) (left : Expr) (operator : Token) (leftHeight : Nat)
  | signed (operator : Token)
  | enclosed
  deriving Repr, DecidableEq

inductive Control where
  | call (procedure : Procedure)
  /-- The head of the loop over the operators of a level. -/
  | join (level : Level) (left : Expr)
  | back (result : Except Stop Expr)

structure Config where
  state : State
  control : Control
  stack : List Frame

/-- Begin to parse at a place. -/
def Config.initial (start : Nat) : Config := ⟨⟨start, 0, 0⟩, .call .expression, []⟩

section

variable (tokens : List Token)

/-- A procedure up to its first call, with what is to be done behind it. -/
def begin : Procedure → Move (Control × List Frame)
  | .expression => return (.call (.phrase (.joined .equality)), [])
  | .phrase (.joined level) => return (.call (.phrase level.operand), [.first level])
  | .phrase .unary => do
      if ← matchAny tokens Kind.unaryOperators then
        let operator ← previous tokens
        descend tokens
        return (.call (.phrase .unary), [.signed operator])
      else
        return (.call (.phrase .primary), [])
  | .phrase .primary => do
      if ← matchAny tokens [.leftParen] then
        descend tokens
        return (.call .expression, [.enclosed])
      else
        match (← peek tokens).operandValue? with
        | some value =>
            let _ ← advance tokens
            modify fun state => { state with height := 1 }
            return (.back (.ok (.literal value)), [])
        | none => refuse tokens .missingOperand

def join (level : Level) (left : Expr) : Move (Control × List Frame) := do
  if ← matchAny tokens level.operators then
    let operator ← previous tokens
    let leftHeight := (← get).height
    return (.call (.phrase level.operand), [.second level left operator leftHeight])
  else
    return (.back (.ok left), [])

/-- Take up what was left to do, now that the call has given an expression. -/
def resume (expr : Expr) : Frame → Move (Control × List Frame)
  | .first level => return (.join level expr, [])
  | .second level left operator leftHeight => do
      grow tokens (max leftHeight (← get).height)
      return (.join level (.binary left operator expr), [])
  | .signed operator => do
      ascend
      grow tokens (← get).height
      return (.back (.ok (.unary operator expr)), [])
  | .enclosed => do
      ascend
      let _ ← consume tokens .rightParen .unclosedGroup
      grow tokens (← get).height
      return (.back (.ok (.group expr)), [])

end

/-- The configuration that a move leads to, above the frames that it has not touched. -/
def settle (stack : List Frame) : EStateM.Result Stop State (Control × List Frame) → Config
  | .ok (control, frames) state => ⟨state, control, frames ++ stack⟩
  | .error stop state => ⟨state, .back (.error stop), stack⟩

/-- One turn. A procedure that breaks off makes its caller break off, and there is no turn any
    more behind the return of the outermost call. -/
def Config.next? (tokens : List Token) : Config → Option Config
  | ⟨state, .call procedure, stack⟩ => some (settle stack (begin tokens procedure state))
  | ⟨state, .join level left, stack⟩ => some (settle stack (join tokens level left state))
  | ⟨state, .back (.ok expr), frame :: stack⟩ =>
      some (settle stack (resume tokens expr frame state))
  | ⟨state, .back (.error stop), _ :: stack⟩ => some ⟨state, .back (.error stop), stack⟩
  | ⟨_, .back _, []⟩ => none

section

variable {α β : Type} {first : Move α} {next : α → Move β} {state last : State}

theorem bind_of_ok {result : α} (ran : first state = .ok result last) :
    (first >>= next) state = next result last := by
  simp only [bind, EStateM.bind, ran]

theorem bind_of_error {stop : Stop} (ran : first state = .error stop last) :
    (first >>= next) state = .error stop last := by
  simp only [bind, EStateM.bind, ran]

theorem get_bind (next : State → Move β) (state : State) :
    (get >>= next) state = next state state := rfl

theorem modify_bind (change : State → State) (next : PUnit → Move β) (state : State) :
    (modify change >>= next) state = next ⟨⟩ (change state) := rfl

end

section

variable {tokens : List Token} {token : Token} {cursor depth height childHeight : Nat}
  {kinds : List Kind}

theorem tokenAt_eq (here : tokens[cursor]? = some token) (state : State) :
    tokenAt tokens cursor state = .ok token state := by
  simp only [tokenAt, here]
  rfl

theorem peek_eq (here : tokens[cursor]? = some token) :
    peek tokens ⟨cursor, depth, height⟩ = .ok token ⟨cursor, depth, height⟩ := by
  rw [peek, get_bind]
  exact tokenAt_eq here _

theorem refuse_eq {α : Type} (here : tokens[cursor]? = some token) (fault : SyntaxFault) :
    (refuse tokens fault : Move α) ⟨cursor, depth, height⟩ =
      .error (.refused ⟨fault, token⟩) ⟨cursor, depth, height⟩ := by
  rw [refuse, bind_of_ok (peek_eq here)]
  rfl

theorem previous_eq (here : tokens[cursor]? = some token) :
    previous tokens ⟨cursor + 1, depth, height⟩ = .ok token ⟨cursor + 1, depth, height⟩ := by
  rw [previous, get_bind]
  exact tokenAt_eq here _

theorem advance_eq (here : tokens[cursor]? = some token) (notEnd : token.kind ≠ .endOfInput) :
    advance tokens ⟨cursor, depth, height⟩ = .ok token ⟨cursor + 1, depth, height⟩ := by
  rw [advance, bind_of_ok (peek_eq here), if_neg notEnd, modify_bind]
  exact previous_eq here

theorem matchAny_of_mem (here : tokens[cursor]? = some token)
    (notEnd : token.kind ≠ .endOfInput) (member : token.kind ∈ kinds) :
    matchAny tokens kinds ⟨cursor, depth, height⟩ = .ok true ⟨cursor + 1, depth, height⟩ := by
  rw [matchAny, bind_of_ok (peek_eq here), if_pos member, bind_of_ok (advance_eq here notEnd)]
  rfl

theorem matchAny_of_not_mem (here : tokens[cursor]? = some token)
    (notMember : token.kind ∉ kinds) :
    matchAny tokens kinds ⟨cursor, depth, height⟩ = .ok false ⟨cursor, depth, height⟩ := by
  rw [matchAny, bind_of_ok (peek_eq here), if_neg notMember]
  rfl

theorem consume_of_kind {kind : Kind} (here : tokens[cursor]? = some token)
    (notEnd : token.kind ≠ .endOfInput) (isKind : token.kind = kind) (fault : SyntaxFault) :
    consume tokens kind fault ⟨cursor, depth, height⟩ = .ok token ⟨cursor + 1, depth, height⟩ := by
  rw [consume, bind_of_ok (peek_eq here), if_pos isKind]
  exact advance_eq here notEnd

theorem consume_of_other {kind : Kind} (here : tokens[cursor]? = some token)
    (other : token.kind ≠ kind) (fault : SyntaxFault) :
    consume tokens kind fault ⟨cursor, depth, height⟩ =
      .error (.refused ⟨fault, token⟩) ⟨cursor, depth, height⟩ := by
  rw [consume, bind_of_ok (peek_eq here), if_neg other]
  exact refuse_eq here fault

theorem descend_of_room (room : depth < maxHeight) :
    descend tokens ⟨cursor, depth, height⟩ = .ok () ⟨cursor, depth + 1, height⟩ := by
  rw [descend, get_bind, if_neg (Nat.not_le.mpr room)]
  rfl

theorem descend_of_full (full : maxHeight ≤ depth) (here : tokens[cursor]? = some token) :
    descend tokens ⟨cursor, depth, height⟩ =
      .error (.refused ⟨.tooDeep, token⟩) ⟨cursor, depth, height⟩ := by
  rw [descend, get_bind, if_pos full]
  exact refuse_eq here .tooDeep

theorem ascend_eq : ascend ⟨cursor, depth + 1, height⟩ = .ok () ⟨cursor, depth, height⟩ := rfl

theorem grow_of_low (low : childHeight + 1 ≤ maxHeight) :
    grow tokens childHeight ⟨cursor, depth, height⟩ =
      .ok () ⟨cursor, depth, childHeight + 1⟩ := by
  rw [grow, modify_bind, get_bind, if_neg (Nat.not_lt.mpr low)]
  rfl

theorem grow_of_tall (tall : maxHeight < childHeight + 1)
    (here : tokens[cursor]? = some token) :
    grow tokens childHeight ⟨cursor, depth, height⟩ =
      .error (.refused ⟨.tooDeep, token⟩) ⟨cursor, depth, childHeight + 1⟩ := by
  rw [grow, modify_bind, get_bind, if_pos tall]
  exact refuse_eq here .tooDeep

theorem operandValue?_eq_none (noTerminal : ∀ value, ¬ Terminal token value) :
    token.operandValue? = none := by
  rw [Option.eq_none_iff_forall_ne_some]
  intro value found
  exact noTerminal value ((token.operandValue?_eq_some_iff value).mp found)

end

/-- What a turn does, told of the tokens at the cursor. In turns of this kind nothing is out of
    range, and nothing is closed that is not open. -/
inductive Turn (tokens : List Token) : Config → Config → Prop where
  | expression {state : State} {stack : List Frame} :
      Turn tokens ⟨state, .call .expression, stack⟩
        ⟨state, .call (.phrase (.joined .equality)), stack⟩
  | joined {state : State} {stack : List Frame} {level : Level} :
      Turn tokens ⟨state, .call (.phrase (.joined level)), stack⟩
        ⟨state, .call (.phrase level.operand), .first level :: stack⟩
  | sign {cursor depth height : Nat} {stack : List Frame} {operator : Token} :
      tokens[cursor]? = some operator → operator.kind ∈ Kind.unaryOperators →
      depth < maxHeight →
      Turn tokens ⟨⟨cursor, depth, height⟩, .call (.phrase .unary), stack⟩
        ⟨⟨cursor + 1, depth + 1, height⟩, .call (.phrase .unary), .signed operator :: stack⟩
  | signFull {cursor depth height : Nat} {stack : List Frame} {operator next : Token} :
      tokens[cursor]? = some operator → operator.kind ∈ Kind.unaryOperators →
      maxHeight ≤ depth → tokens[cursor + 1]? = some next →
      Turn tokens ⟨⟨cursor, depth, height⟩, .call (.phrase .unary), stack⟩
        ⟨⟨cursor + 1, depth, height⟩, .back (.error (.refused ⟨.tooDeep, next⟩)), stack⟩
  | unsigned {cursor depth height : Nat} {stack : List Frame} {token : Token} :
      tokens[cursor]? = some token → token.kind ∉ Kind.unaryOperators →
      Turn tokens ⟨⟨cursor, depth, height⟩, .call (.phrase .unary), stack⟩
        ⟨⟨cursor, depth, height⟩, .call (.phrase .primary), stack⟩
  | opening {cursor depth height : Nat} {stack : List Frame} {token : Token} :
      tokens[cursor]? = some token → token.kind = .leftParen → depth < maxHeight →
      Turn tokens ⟨⟨cursor, depth, height⟩, .call (.phrase .primary), stack⟩
        ⟨⟨cursor + 1, depth + 1, height⟩, .call .expression, .enclosed :: stack⟩
  | openingFull {cursor depth height : Nat} {stack : List Frame} {token next : Token} :
      tokens[cursor]? = some token → token.kind = .leftParen → maxHeight ≤ depth →
      tokens[cursor + 1]? = some next →
      Turn tokens ⟨⟨cursor, depth, height⟩, .call (.phrase .primary), stack⟩
        ⟨⟨cursor + 1, depth, height⟩, .back (.error (.refused ⟨.tooDeep, next⟩)), stack⟩
  | literal {cursor depth height : Nat} {stack : List Frame} {token : Token} {value : Value} :
      tokens[cursor]? = some token → Terminal token value →
      Turn tokens ⟨⟨cursor, depth, height⟩, .call (.phrase .primary), stack⟩
        ⟨⟨cursor + 1, depth, 1⟩, .back (.ok (.literal value)), stack⟩
  | missing {cursor depth height : Nat} {stack : List Frame} {token : Token} :
      tokens[cursor]? = some token → token.kind ≠ .leftParen →
      (∀ value, ¬ Terminal token value) →
      Turn tokens ⟨⟨cursor, depth, height⟩, .call (.phrase .primary), stack⟩
        ⟨⟨cursor, depth, height⟩, .back (.error (.refused ⟨.missingOperand, token⟩)), stack⟩
  | operator {cursor depth height : Nat} {stack : List Frame} {level : Level} {left : Expr}
      {operator : Token} :
      tokens[cursor]? = some operator → operator.kind ∈ level.operators →
      Turn tokens ⟨⟨cursor, depth, height⟩, .join level left, stack⟩
        ⟨⟨cursor + 1, depth, height⟩, .call (.phrase level.operand),
          .second level left operator height :: stack⟩
  | noOperator {cursor depth height : Nat} {stack : List Frame} {level : Level} {left : Expr}
      {token : Token} :
      tokens[cursor]? = some token → token.kind ∉ level.operators →
      Turn tokens ⟨⟨cursor, depth, height⟩, .join level left, stack⟩
        ⟨⟨cursor, depth, height⟩, .back (.ok left), stack⟩
  | first {state : State} {stack : List Frame} {level : Level} {left : Expr} :
      Turn tokens ⟨state, .back (.ok left), .first level :: stack⟩
        ⟨state, .join level left, stack⟩
  | second {cursor depth height leftHeight : Nat} {stack : List Frame} {level : Level}
      {left right : Expr} {operator : Token} :
      max leftHeight height + 1 ≤ maxHeight →
      Turn tokens ⟨⟨cursor, depth, height⟩, .back (.ok right),
          .second level left operator leftHeight :: stack⟩
        ⟨⟨cursor, depth, max leftHeight height + 1⟩, .join level (.binary left operator right),
          stack⟩
  | secondTall {cursor depth height leftHeight : Nat} {stack : List Frame} {level : Level}
      {left right : Expr} {operator token : Token} :
      maxHeight < max leftHeight height + 1 → tokens[cursor]? = some token →
      Turn tokens ⟨⟨cursor, depth, height⟩, .back (.ok right),
          .second level left operator leftHeight :: stack⟩
        ⟨⟨cursor, depth, max leftHeight height + 1⟩,
          .back (.error (.refused ⟨.tooDeep, token⟩)), stack⟩
  | signed {cursor depth height : Nat} {stack : List Frame} {operator : Token} {operand : Expr} :
      height + 1 ≤ maxHeight →
      Turn tokens ⟨⟨cursor, depth + 1, height⟩, .back (.ok operand), .signed operator :: stack⟩
        ⟨⟨cursor, depth, height + 1⟩, .back (.ok (.unary operator operand)), stack⟩
  | signedTall {cursor depth height : Nat} {stack : List Frame} {operator token : Token}
      {operand : Expr} :
      maxHeight < height + 1 → tokens[cursor]? = some token →
      Turn tokens ⟨⟨cursor, depth + 1, height⟩, .back (.ok operand), .signed operator :: stack⟩
        ⟨⟨cursor, depth, height + 1⟩, .back (.error (.refused ⟨.tooDeep, token⟩)), stack⟩
  | enclosed {cursor depth height : Nat} {stack : List Frame} {closing : Token} {inner : Expr} :
      tokens[cursor]? = some closing → closing.kind = .rightParen → height + 1 ≤ maxHeight →
      Turn tokens ⟨⟨cursor, depth + 1, height⟩, .back (.ok inner), .enclosed :: stack⟩
        ⟨⟨cursor + 1, depth, height + 1⟩, .back (.ok (.group inner)), stack⟩
  | enclosedTall {cursor depth height : Nat} {stack : List Frame} {closing next : Token}
      {inner : Expr} :
      tokens[cursor]? = some closing → closing.kind = .rightParen → maxHeight < height + 1 →
      tokens[cursor + 1]? = some next →
      Turn tokens ⟨⟨cursor, depth + 1, height⟩, .back (.ok inner), .enclosed :: stack⟩
        ⟨⟨cursor + 1, depth, height + 1⟩, .back (.error (.refused ⟨.tooDeep, next⟩)), stack⟩
  | unclosed {cursor depth height : Nat} {stack : List Frame} {token : Token} {inner : Expr} :
      tokens[cursor]? = some token → token.kind ≠ .rightParen →
      Turn tokens ⟨⟨cursor, depth + 1, height⟩, .back (.ok inner), .enclosed :: stack⟩
        ⟨⟨cursor, depth, height⟩, .back (.error (.refused ⟨.unclosedGroup, token⟩)), stack⟩
  | unwind {state : State} {stack : List Frame} {stop : Stop} {frame : Frame} :
      Turn tokens ⟨state, .back (.error stop), frame :: stack⟩
        ⟨state, .back (.error stop), stack⟩

namespace Turn

variable {tokens : List Token} {config later : Config}

theorem next?_eq (turn : Turn tokens config later) : config.next? tokens = some later := by
  cases turn with
  | expression | joined | first | unwind => rfl
  | sign here member room =>
      have notEnd := Token.AwaitsOperand.kind_ne_endOfInput (.inl member)
      rw [Config.next?, begin, bind_of_ok (matchAny_of_mem here notEnd member), if_pos rfl,
        bind_of_ok (previous_eq here), bind_of_ok (descend_of_room room)]
      rfl
  | signFull here member full next =>
      have notEnd := Token.AwaitsOperand.kind_ne_endOfInput (.inl member)
      rw [Config.next?, begin, bind_of_ok (matchAny_of_mem here notEnd member), if_pos rfl,
        bind_of_ok (previous_eq here), bind_of_error (descend_of_full full next)]
      rfl
  | unsigned here notMember =>
      rw [Config.next?, begin, bind_of_ok (matchAny_of_not_mem here notMember)]
      rfl
  | opening here isOpening room =>
      have notEnd := Token.AwaitsOperand.kind_ne_endOfInput (.inr (.inr isOpening))
      have member := List.mem_singleton.mpr isOpening
      rw [Config.next?, begin, bind_of_ok (matchAny_of_mem here notEnd member), if_pos rfl,
        bind_of_ok (descend_of_room room)]
      rfl
  | openingFull here isOpening full next =>
      have notEnd := Token.AwaitsOperand.kind_ne_endOfInput (.inr (.inr isOpening))
      have member := List.mem_singleton.mpr isOpening
      rw [Config.next?, begin, bind_of_ok (matchAny_of_mem here notEnd member), if_pos rfl,
        bind_of_error (descend_of_full full next)]
      rfl
  | literal here terminal =>
      have notOpening := mt List.mem_singleton.mp terminal.opens_nothing.2
      have notEnd := Token.EndsOperand.kind_ne_endOfInput (.inl ⟨_, terminal⟩)
      rw [Config.next?, begin, bind_of_ok (matchAny_of_not_mem here notOpening),
        if_neg Bool.false_ne_true, bind_of_ok (peek_eq here),
        (Token.operandValue?_eq_some_iff _ _).mpr terminal]
      dsimp only
      rw [bind_of_ok (advance_eq here notEnd)]
      rfl
  | missing here notOpening noTerminal =>
      rw [Config.next?, begin,
        bind_of_ok (matchAny_of_not_mem here (mt List.mem_singleton.mp notOpening)),
        if_neg Bool.false_ne_true, bind_of_ok (peek_eq here), operandValue?_eq_none noTerminal]
      dsimp only
      rw [refuse_eq here]
      rfl
  | operator here member =>
      have notEnd := (Token.awaitsOperand_of_level member).kind_ne_endOfInput
      rw [Config.next?, join, bind_of_ok (matchAny_of_mem here notEnd member), if_pos rfl,
        bind_of_ok (previous_eq here), get_bind]
      rfl
  | noOperator here notMember =>
      rw [Config.next?, join, bind_of_ok (matchAny_of_not_mem here notMember)]
      rfl
  | second low =>
      rw [Config.next?, resume, get_bind, bind_of_ok (grow_of_low low)]
      rfl
  | secondTall tall here =>
      rw [Config.next?, resume, get_bind, bind_of_error (grow_of_tall tall here)]
      rfl
  | signed low =>
      rw [Config.next?, resume, bind_of_ok ascend_eq, get_bind, bind_of_ok (grow_of_low low)]
      rfl
  | signedTall tall here =>
      rw [Config.next?, resume, bind_of_ok ascend_eq, get_bind,
        bind_of_error (grow_of_tall tall here)]
      rfl
  | enclosed here isClosing low =>
      have notEnd := Token.EndsOperand.kind_ne_endOfInput (.inr isClosing)
      rw [Config.next?, resume, bind_of_ok ascend_eq,
        bind_of_ok (consume_of_kind here notEnd isClosing _), get_bind,
        bind_of_ok (grow_of_low low)]
      rfl
  | enclosedTall here isClosing tall next =>
      have notEnd := Token.EndsOperand.kind_ne_endOfInput (.inr isClosing)
      rw [Config.next?, resume, bind_of_ok ascend_eq,
        bind_of_ok (consume_of_kind here notEnd isClosing _), get_bind,
        bind_of_error (grow_of_tall tall next)]
      rfl
  | unclosed here notClosing =>
      rw [Config.next?, resume, bind_of_ok ascend_eq,
        bind_of_error (consume_of_other here notClosing _)]
      rfl

end Turn

end Machine

end Reckoner
