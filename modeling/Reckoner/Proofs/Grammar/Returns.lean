import Reckoner.Proofs.Grammar.Calls

/-! # Returns

Every call that is made while parsing returns just once, with an expression behind the cursor that
it began at or with a fault at the cursor that it ends at.
-/

namespace Reckoner

open Grammar

namespace Machine

/-- The call returns. -/
def Returns (tokens : List Token) (config : Config) (result : Except Stop Expr) (last : State) :
    Prop :=
  Inside tokens config.stack config ⟨last, .back result, config.stack⟩

/-- How a call may end that began in the state `entry`. -/
inductive EndsWell (tokens : List Token) (entry last : State) : Except Stop Expr → Prop where
  | ok {expr : Expr} :
      entry.cursor < last.cursor → last.depth = entry.depth → last.height = expr.height →
      expr.height ≤ 128 → EndsWell tokens entry last (.ok expr)
  | error {refusal : Refusal} :
      entry.cursor ≤ last.cursor → tokens[last.cursor]? = some refusal.token →
      EndsWell tokens entry last (.error (.refused refusal))

section

variable {stream : TokenStream} {stack : List Frame} {config : Config}

theorem Turn.exists_frame {tokens : List Token} {state : State} {result : Except Stop Expr}
    {later : Config} (turn : Turn tokens ⟨state, .back result, stack⟩ later) :
    ∃ frame, stack = frame :: later.stack := by
  cases turn <;> exact ⟨_, rfl⟩

theorem Inside.reaches {tokens : List Token} {later : Config}
    (runs : Inside tokens stack config later) : Reaches tokens config later :=
  Relation.ReflTransGen.mono (fun _ _ goesOn => goesOn.1) _ _ runs

theorem returns_unique (closed : stream.final.kind = .endOfInput)
    (lawful : config.Lawful stream.toTokens) {result result' : Except Stop Expr}
    {last last' : State} (one : Returns stream.toTokens config result last)
    (other : Returns stream.toTokens config result' last') : result = result' ∧ last = last' := by
  -- A return lets the caller go on, and its frame is no longer in the stack then.
  have stays {result : Except Stop Expr} {last : State} {later : Config}
      (returns : Returns stream.toTokens config result last)
      (runs : Inside stream.toTokens config.stack ⟨last, .back result, config.stack⟩ later) :
      later = ⟨last, .back result, config.stack⟩ := by
    obtain same | ⟨next, ⟨goesOn, above⟩, -⟩ := runs.cases_head
    · exact same.symm
    · have lawfulLast := lawful_of_reaches closed lawful returns.reaches
      obtain ⟨frame, isStack⟩ := (lawfulLast.turn closed goesOn).exists_frame
      have shorter := above.length_le
      rw [isStack, List.length_cons] at shorter
      omega
  have unique : Relator.RightUnique fun before later : Config =>
      before.next? stream.toTokens = some later ∧ config.stack <:+ later.stack :=
    fun _ _ _ goesOn goesOn' => Option.some.inj (goesOn.1.symm.trans goesOn'.1)
  have same : (⟨last', .back result', config.stack⟩ : Config) =
      ⟨last, .back result, config.stack⟩ := by
    obtain onward | onward := Relation.ReflTransGen.total_of_right_unique unique one other
    · exact stays one onward
    · exact (stays other onward).symm
  cases same
  exact ⟨rfl, rfl⟩

theorem exists_sound (procedure : Procedure) (room : Nat) :
    ∃ phrase : Phrase, phrase.Sound maxHeight (procedure.read room) := by
  have operand : Phrase.unary.Sound maxHeight (operand maxHeight room) :=
    operand_sound (by decide) room
  have factor := @chain_sound maxHeight .factor _ operand
  have term := @chain_sound maxHeight .term _ factor
  have comparison := @chain_sound maxHeight .comparison _ term
  match procedure with
  | .expression | .phrase (.joined .equality) =>
      exact ⟨_, @chain_sound maxHeight .equality _ comparison⟩
  | .phrase (.joined .comparison) => exact ⟨_, comparison⟩
  | .phrase (.joined .term) => exact ⟨_, term⟩
  | .phrase (.joined .factor) => exact ⟨_, factor⟩
  | .phrase .unary | .phrase .primary => exact ⟨_, operand⟩

theorem Config.Lawful.exists_returns (closed : stream.final.kind = .endOfInput)
    (lawful : config.Lawful stream.toTokens) {procedure : Procedure}
    (isCall : config.control = .call procedure) : ∃ result last,
      Returns stream.toTokens config result last ∧
        EndsWell stream.toTokens config.state last result := by
  obtain ⟨phrase, sound⟩ := exists_sound procedure (maxHeight - config.state.depth)
  have gives := lawful.gives closed isCall
  generalize reads : procedure.read (maxHeight - config.state.depth)
    (stream.unread.drop config.state.cursor) = reading at gives
  cases gives with
  | @ok cursor parsed inside parts runs =>
      obtain ⟨⟨⟨used, isSplit, derivation⟩, height_eq, height_le⟩, -⟩ := sound _ _ reads
      have lengths := congrArg List.length isSplit
      rw [← parts, List.length_append, List.length_drop, List.length_drop] at lengths
      have nonempty := List.length_pos_iff.mpr derivation.tokens_ne_nil
      have further : config.state.cursor < cursor := by omega
      exact ⟨_, _, runs, .ok further rfl height_eq (height_eq ▸ height_le)⟩
  | error inside parts runs =>
      exact ⟨_, _, runs, .error (cursor_le_of_reaches closed lawful runs.reaches)
        (getElem?_of_drop inside parts)⟩

/-- The outermost call is the parse. -/
theorem parse_of_returns (closed : stream.final.kind = .endOfInput) {start : Nat}
    (inside : start < stream.toTokens.length) {result : Except Stop Expr} {last : State}
    (returns : Returns stream.toTokens (.initial start) result last) :
    (∃ expr, result = .ok expr ∧ (stream.skip start).parse = .ok expr) ∨
      ∃ refusal, result = .error (.refused refusal) ∧
        (stream.skip start).parse = .error refusal.diagnostic := by
  have lawful := lawful_initial inside
  have gives : Gives stream [] 0 (.initial start)
      (readWithin maxHeight (stream.skip start).unread) := lawful.gives closed rfl
  unfold TokenStream.parse
  generalize readWithin maxHeight (stream.skip start).unread = reading at gives
  cases gives with
  | ok _ _ runs => exact .inl ⟨_, (returns_unique closed lawful returns runs).1, rfl⟩
  | error _ _ runs => exact .inr ⟨_, (returns_unique closed lawful returns runs).1, rfl⟩

theorem Config.Lawful.in_order {tokens : List Token} (lawful : config.Lawful tokens) :
    config.state.cursor < tokens.length ∧ config.state.depth ≤ maxHeight ∧
      config.control ≠ .back (.error .outOfRange) ∧
        config.control ≠ .back (.error .underflow) := by
  cases lawful with
  | call fits | join fits | given fits => exact ⟨fits.cursor_lt, fits.depth_le, nofun, nofun⟩
  | refused here depth_le =>
      exact ⟨(List.getElem?_eq_some_iff.mp here).1, depth_le, nofun, nofun⟩

end

/-- Wherever a parse has come to, the cursor is at a token and never goes back, the depth keeps its
    limit, and nothing was out of range or closed without being open. Every call returns, once:
    with an expression behind at least one more token, at the depth of the call and with the
    height of that expression, or with a fault at the token that the cursor is at. It gives what
    is read from its tokens with the room that is left, and the outermost call is the parse. -/
theorem every_call_ends_well (tokens : List Token) (start : Nat)
    (inside : start < (Token.closed tokens).length) :
    let stream := TokenStream.ofTokens tokens
    (∀ config, Reaches (Token.closed tokens) (.initial start) config →
      (config.state.cursor < (Token.closed tokens).length ∧ config.state.depth ≤ 128 ∧
        config.control ≠ .back (.error .outOfRange) ∧
          config.control ≠ .back (.error .underflow)) ∧
      (∀ later, Reaches (Token.closed tokens) config later →
        config.state.cursor ≤ later.state.cursor) ∧
      ∀ procedure, config.control = .call procedure →
        (∃ result last, Returns (Token.closed tokens) config result last) ∧
        (∀ result last, Returns (Token.closed tokens) config result last →
          EndsWell (Token.closed tokens) config.state last result ∧
            ∀ result' last', Returns (Token.closed tokens) config result' last' →
              result' = result ∧ last' = last) ∧
        Gives stream config.stack config.state.depth config
          (procedure.read (128 - config.state.depth) (stream.unread.drop config.state.cursor))) ∧
    ∀ result last, Returns (Token.closed tokens) (.initial start) result last →
      (∃ expr, result = .ok expr ∧ (stream.skip start).parse = .ok expr) ∨
        ∃ refusal, result = .error (.refused refusal) ∧
          (stream.skip start).parse = .error refusal.diagnostic := by
  intro stream
  have closed : stream.final.kind = .endOfInput := TokenStream.final_ofTokens tokens
  rw [← TokenStream.toTokens_ofTokens] at inside ⊢
  refine ⟨fun config reaches => ?_, fun result last => parse_of_returns closed inside⟩
  have lawful := lawful_of_reaches closed (lawful_initial inside) reaches
  refine ⟨lawful.in_order, fun later => cursor_le_of_reaches closed lawful, ?_⟩
  intro procedure isCall
  obtain ⟨result, last, returns, ends⟩ := lawful.exists_returns closed isCall
  refine ⟨⟨result, last, returns⟩, fun result' last' returns' => ⟨?_, ?_⟩,
    lawful.gives closed isCall⟩
  · obtain ⟨rfl, rfl⟩ := returns_unique closed lawful returns returns'
    exact ends
  · intro result'' last'' returns''
    exact returns_unique closed lawful returns'' returns'

/-- A unary operator inside parentheses is read at depth one. -/
theorem every_call_ends_well_in_group :
    let token (kind : Kind) : Token := ⟨kind, "", none, 1⟩
    let tokens : List Token := [.leftParen, .minus, .keyword .nilWord, .rightParen].map token
    let inner : Config := ⟨⟨1, 1, 0⟩, .call .expression,
      [.enclosed, .first .factor, .first .term, .first .comparison, .first .equality]⟩
    0 < (Token.closed tokens).length ∧ Reaches (Token.closed tokens) (.initial 0) inner ∧
      ∃ last, Returns (Token.closed tokens) inner (.ok (.unary (token .minus) (.literal .nil))) last ∧
        1 < last.cursor ∧ last.depth = 1 ∧ last.height = 2 := by
  intro token tokens inner
  have inside : 0 < (Token.closed tokens).length := by decide
  have reaches : Reaches (Token.closed tokens) (.initial 0) inner :=
    .head rfl (.head rfl (.head rfl (.head rfl (.head rfl (.head rfl (.single rfl))))))
  obtain ⟨-, -, calls⟩ := (every_call_ends_well tokens 0 inside).1 inner reaches
  obtain ⟨-, ends, gives⟩ := calls .expression rfl
  have reads : Procedure.expression.read 127 (tokens.drop 1) =
      .ok ⟨.unary (token .minus) (.literal .nil), 2, [token .rightParen]⟩ := by decide +kernel
  obtain ⟨last, returns⟩ : ∃ last, Returns (Token.closed tokens) inner
      (.ok (.unary (token .minus) (.literal .nil))) last := by
    cases reads ▸ gives with
    | ok _ _ runs => exact ⟨_, runs⟩
  refine ⟨inside, reaches, last, returns, ?_⟩
  cases (ends _ last returns).1 with
  | ok further sameDepth isHeight _ => exact ⟨further, sameDepth, isHeight⟩

end Machine

end Reckoner
