import Reckoner.Proofs.Grammar.Growth
import Reckoner.Proofs.Grammar.Horizon

/-! # What the height limit changes

A lower limit changes a reading in one way only: the reader gives up for the depth, and no
later than it would have stopped. A limit above the number of tokens is never met, so it is the
same as none. Against that reader the limit refuses just the trees that are too tall, never
hides another fault behind a later place, and never refuses what could still have become an
expression of lawful height.
-/

namespace Reckoner

open Grammar

/-- The first reading is the second one, or gave up for the depth where the second one had not
    stopped yet. -/
inductive Reading.Curtails : Reading → Reading → Prop where
  | same {reading : Reading} : Curtails reading reading
  | early {rest : List Token} {reading : Reading} :
      Reading.rest reading <:+ rest → Curtails (.error ⟨.tooDeep, rest⟩) reading

theorem Reading.Curtails.eq_of_ok {parsed : Parsed} {reading : Reading}
    (curtails : Reading.Curtails (.ok parsed) reading) : reading = .ok parsed := by
  cases curtails
  rfl

theorem Reading.exists_of_result_ok {reading : Reading} {expr : Expr}
    (gives : Reading.result reading = .ok expr) :
    ∃ parsed, reading = .ok parsed ∧ parsed.expr = expr := by
  cases reading with
  | ok parsed => exact ⟨parsed, rfl, Except.ok.inj gives⟩
  | error => cases gives

theorem Reading.exists_of_result_error {reading : Reading} {fault : SyntaxFault}
    (refuses : Reading.result reading = .error fault) :
    ∃ rejection, reading = .error rejection ∧ rejection.fault = fault := by
  cases reading with
  | ok => cases refuses
  | error rejection => exact ⟨rejection, rfl, Except.error.inj refuses⟩

namespace Grammar

open Reading (Curtails)

variable {limit limit' room room' : Nat} {level : Level} {reader reader' : List Token → Reading}
  {next next' : Parsed → Reading}

/-- Everything that the first reader gives is what the second one gives, or is cut short. -/
def Under (reader reader' : List Token → Reading) : Prop :=
  ∀ tokens, Curtails (reader tokens) (reader' tokens)

theorem bind_under (under : Under reader reader')
    (underFrom : ∀ parsed, Curtails (next parsed) (next' parsed))
    (recedesFrom : RecedesFrom next') :
    Under (fun tokens => (reader tokens).bind next) fun tokens => (reader' tokens).bind next' := by
  intro tokens
  have curtails := under tokens
  show Curtails ((reader tokens).bind next) ((reader' tokens).bind next')
  cases read : reader tokens with
  | ok parsed =>
      rw [read] at curtails
      rw [curtails.eq_of_ok]
      exact underFrom parsed
  | error rejection =>
      generalize reader' tokens = reading at curtails
      rw [read] at curtails
      cases curtails with
      | same => exact .same
      | early behind =>
          refine .early ?_
          cases reading with
          | error => exact behind
          | ok parsed => exact (recedesFrom parsed).trans behind

theorem within_curtails (order : limit ≤ limit') (parsed : Parsed) :
    Curtails (parsed.within limit) (parsed.within limit') := by
  by_cases low : parsed.height ≤ limit
  · rw [Parsed.within, Parsed.within, if_pos low, if_pos (Nat.le_trans low order)]
    exact .same
  · rw [Parsed.within, if_neg low, ← within_rest limit' parsed]
    exact .early List.suffix_rfl

theorem chainFrom_rest_suffix (limit : Nat) (recedes : Recedes reader) {left : Parsed}
    {operator : Token} {rest : List Token} (isNext : left.rest = operator :: rest)
    (isOperator : operator.kind.level? = some level) :
    Reading.rest (chainFrom limit level reader left) <:+ Reading.rest (reader rest) := by
  rw [chainFrom, isNext]
  simp only [isOperator, if_true]
  split
  · rename_i rejection refused
    exact refused ▸ List.suffix_rfl
  · rename_i right read
    rw [read]
    split
    · exact chainFrom_recedes recedes (left.binary operator right)
    · exact List.suffix_rfl

theorem chainFrom_under (order : limit ≤ limit') (under : Under reader reader')
    (recedes : Recedes reader') (left : Parsed) :
    Curtails (chainFrom limit level reader left) (chainFrom limit' level reader' left) := by
  -- By induction on the turns of the loop under the lower limit.
  fun_induction chainFrom limit level reader left with
  | case1 left isNext =>
      rw [chainFrom_of_ends (by simp [isNext])]
      exact .same
  | case2 left operator tokens isNext isOperator rejection refused =>
      have curtails := under tokens
      rw [refused] at curtails
      have further := chainFrom_rest_suffix limit' recedes isNext isOperator
      generalize read' : reader' tokens = reading at curtails further
      cases curtails with
      | same =>
          rw [chainFrom, isNext]
          simp only [isOperator, if_true, read']
          exact .same
      | early behind => exact .early (further.trans behind)
  | case3 left operator tokens isNext isOperator right read low ih =>
      have read' := (read ▸ under tokens).eq_of_ok
      have member := (Kind.level?_eq_some_iff _ _).mp isOperator
      rw [chainFrom_step isNext member read' (Nat.le_trans low order)]
      exact ih
  | case4 left operator tokens isNext isOperator right read =>
      have read' := (read ▸ under tokens).eq_of_ok
      have further := chainFrom_rest_suffix limit' recedes isNext isOperator
      rw [read'] at further
      exact .early further
  | case5 left operator tokens isNext notOperator =>
      have ends : ∀ token ∈ left.rest.head?, token.kind ∉ level.operators := by
        intro token isHead member
        obtain rfl : operator = token := by simpa [isNext] using isHead
        exact notOperator ((Kind.level?_eq_some_iff _ _).mpr member)
      rw [chainFrom_of_ends ends]
      exact .same

theorem chain_under (order : limit ≤ limit') (under : Under reader reader')
    (recedes : Recedes reader') :
    Under (chain limit level reader) (chain limit' level reader') := by
  rw [show chain limit level reader = _ from funext chain_eq_bind,
    show chain limit' level reader' = _ from funext chain_eq_bind]
  exact bind_under under (chainFrom_under order under recedes) (chainFrom_recedes recedes)

theorem expression_under (order : limit ≤ limit') (under : Under reader reader')
    (recedes : Recedes reader') : Under (expression limit reader) (expression limit' reader') := by
  have recedesFactor := @chain_recedes limit' .factor _ recedes
  have recedesTerm := @chain_recedes limit' .term _ recedesFactor
  have factor := @chain_under _ _ .factor _ _ order under recedes
  have term := @chain_under _ _ .term _ _ order factor recedesFactor
  have comparison := @chain_under _ _ .comparison _ _ order term recedesTerm
  exact chain_under order comparison (chain_recedes recedesTerm)

theorem closeGroup_under (order : limit ≤ limit') (inner : Parsed) :
    Curtails (closeGroup limit inner) (closeGroup limit' inner) := by
  unfold closeGroup
  split
  · exact .same
  · split
    · exact within_curtails order _
    · exact .same

theorem operand_under (order : limit ≤ limit') (room : Nat) :
    ∀ room', room ≤ room' → Under (operand limit room) (operand limit' room') := by
  -- The operand is where the other counter stands: the room for what is open at a time.
  induction room using Nat.strongRecOn with
  | ind room ih =>
      intro room' wider tokens
      by_cases missing : ∀ token ∈ tokens.head?, ¬ BeginsOperand token
      · rw [operand_eq_of_missing missing, operand_eq_of_missing missing]
        exact .same
      · obtain ⟨token, rest, rfl, begins⟩ := exists_cons_of_head? missing
        cases room with
        | zero =>
            have further : Reading.rest (operand limit' room' (token :: rest)) <:+ rest :=
              operand_advances begins rest
            obtain member | isOpening | ⟨value, terminal⟩ := begins
            · rw [operand_eq_of_full (.inl member)]
              exact .early further
            · rw [operand_eq_of_full (.inr isOpening)]
              exact .early further
            · rw [operand_literal terminal, operand_literal terminal]
              exact .same
        | succ room =>
            obtain ⟨room', rfl⟩ := Nat.exists_eq_add_one_of_ne_zero (Nat.ne_zero_of_lt wider)
            have under := ih room (Nat.lt_succ_self room) room' (Nat.le_of_succ_le_succ wider)
            have recedes := operand_recedes limit' room'
            obtain member | isOpening | ⟨value, terminal⟩ := begins
            · rw [operand_eq_of_unary member, operand_eq_of_unary member]
              exact bind_under under (fun inner => within_curtails order _)
                (unary_recedes token) rest
            · rw [operand_eq_of_opening isOpening, operand_eq_of_opening isOpening]
              exact bind_under (expression_under order under recedes) (closeGroup_under order)
                (closeGroup_recedes limit') rest
            · rw [operand_literal terminal, operand_literal terminal]
              exact .same

theorem readWithin_under (order : limit ≤ limit') :
    Under (readWithin limit) (readWithin limit') :=
  expression_under order (operand_under order limit limit' order) (operand_recedes limit' limit')

theorem fault_ne_tooDeep {tokens : List Token} (positive : 0 < limit)
    (enough : tokens.length ≤ limit) {rejection : Rejection}
    (refused : readWithin limit tokens = .error rejection) : rejection.fault ≠ .tooDeep := by
  intro isTooDeep
  obtain ⟨used, parts, broken⟩ := readWithin_breaks positive tokens rejection refused
  rw [isTooDeep] at broken
  have met := broken.min_lt_length
  have lengths := congrArg List.length parts
  rw [List.length_append] at lengths
  omega

/-- A tree is found under every limit that it keeps. -/
theorem readWithin_of_low (positive : 0 < limit) {tokens : List Token} {parsed : Parsed}
    (read : readWithin limit tokens = .ok parsed) (low : parsed.height ≤ limit') :
    readWithin limit' tokens = .ok parsed := by
  obtain ⟨⟨⟨used, rfl, derivation⟩, height_eq, _⟩, ends⟩ := readWithin_sound positive _ _ read
  rw [height_eq] at low
  have leads := derivation.leads low limit' (Nat.le_succ_of_le low)
  obtain ⟨expr, height, rest⟩ := parsed
  rw [show height = expr.height from height_eq]
  exact leads.read_eq ends

end Grammar

theorem Token.getElem?_closed {tokens : List Token} {place : Nat} (below : place < tokens.length) :
    (Token.closed tokens)[place]? = tokens[place]? := by
  unfold Token.closed
  split
  · rfl
  · exact List.getElem?_append_left below

namespace TokenStream

variable {stream other : TokenStream} {start stop : Nat}

/-- Parse without a limit. One is given that is higher than any tree of so many tokens. -/
def unlimited (stream : TokenStream) (start : Nat) : Verdict :=
  stream.verdict (stream.unread.length + 1) start

/-- Parsing finds the fault where it stops, and tells it of the token there. -/
structure FailsAt (stream : TokenStream) (start : Nat) (fault : SyntaxFault) (stop : Nat) :
    Prop where
  verdict : stream.verdict maxHeight start = ⟨.error fault, stop⟩
  told : ∃ anchor, stream.toTokens[stop]? = some anchor ∧
    (stream.skip start).parse = .error (.syntactic anchor.line
      (if anchor.kind = .endOfInput then .atEnd else .atLexeme anchor.lexeme) fault.message)

theorem failsAt_of_verdict {fault : SyntaxFault} (inside : start ≤ stream.unread.length)
    (fails : stream.verdict maxHeight start = ⟨.error fault, stop⟩) :
    stream.FailsAt start fault stop :=
  ⟨fails, parse_eq_error_of_verdict inside fails⟩

theorem verdict_under {limit limit' : Nat} (order : limit ≤ limit') (stream : TokenStream)
    (start : Nat) : stream.verdict limit start = stream.verdict limit' start ∨
      ∃ stop, stream.verdict limit start = ⟨.error .tooDeep, stop⟩ ∧
        stop ≤ (stream.verdict limit' start).stop := by
  have curtails := readWithin_under order (stream.unread.drop start)
  simp only [verdict]
  generalize readWithin limit (stream.unread.drop start) = less at curtails ⊢
  generalize readWithin limit' (stream.unread.drop start) = more at curtails ⊢
  cases curtails with
  | same => exact .inl rfl
  | early behind =>
      refine .inr ⟨_, rfl, ?_⟩
      have shorter := behind.length_le
      simp only [Reading.rest] at shorter ⊢
      omega

theorem result_ne_tooDeep {limit : Nat} (enough : stream.unread.length < limit) :
    (stream.verdict limit start).result ≠ .error .tooDeep := by
  intro isTooDeep
  obtain ⟨rejection, refused, isFault⟩ := Reading.exists_of_result_error isTooDeep
  have shorter := (List.drop_suffix start stream.unread).length_le
  exact fault_ne_tooDeep (by omega) (by omega) refused isFault

/-- All limits that are never met are the same. -/
theorem verdict_eq_unlimited {limit : Nat} (enough : stream.unread.length < limit) :
    stream.verdict limit start = stream.unlimited start := by
  obtain same | ⟨stop, fails, _⟩ :=
    verdict_under (Nat.succ_le_of_lt enough) stream start
  · exact same.symm
  · have never : (stream.unlimited start).result ≠ .error .tooDeep :=
      result_ne_tooDeep (Nat.lt_succ_self _)
    exact absurd (congrArg Verdict.result fails) never

/-- Under the limit the same is found as without, or that the tree is too tall. -/
theorem verdict_eq_unlimited_or (stream : TokenStream) (start : Nat) :
    stream.verdict maxHeight start = stream.unlimited start ∨
      ∃ stop, stream.verdict maxHeight start = ⟨.error .tooDeep, stop⟩ ∧
        stop ≤ (stream.unlimited start).stop := by
  have order : maxHeight ≤ max maxHeight (stream.unread.length + 1) := Nat.le_max_left _ _
  have enough : stream.unread.length < max maxHeight (stream.unread.length + 1) :=
    Nat.le_max_right _ _
  rw [← verdict_eq_unlimited enough]
  exact verdict_under order stream start

theorem height_le_of_verdict {limit : Nat} (positive : 0 < limit) {expr : Expr}
    (gives : (stream.verdict limit start).result = .ok expr) : expr.height ≤ limit := by
  obtain ⟨parsed, read, rfl⟩ := Reading.exists_of_result_ok gives
  have reading := (readWithin_sound positive _ _ read).1
  exact reading.height_eq ▸ reading.height_le

theorem verdict_eq_unlimited_of_low {expr : Expr}
    (gives : (stream.unlimited start).result = .ok expr) (low : expr.height ≤ maxHeight) :
    stream.verdict maxHeight start = stream.unlimited start := by
  obtain ⟨parsed, read, rfl⟩ := Reading.exists_of_result_ok gives
  rw [← (readWithin_sound (Nat.succ_pos _) _ _ read).1.height_eq] at low
  simp only [unlimited, verdict, read, readWithin_of_low (Nat.succ_pos _) read low]

/-- What is given up for the depth cannot become a tree of lawful height. -/
theorem parse_ne_ok_of_tooDeep (closed : other.final.kind = .endOfInput)
    (fails : stream.verdict maxHeight start = ⟨.error .tooDeep, stop⟩)
    (agree : AgreeOn start stop stream.toTokens other.toTokens) (expr : Expr) :
    (other.skip start).parse ≠ .ok expr := by
  intro parses
  obtain ⟨used, rest, reading, parts, reads, leaves, isVerdict⟩ :=
    exists_reading maxHeight stream start
  obtain ⟨isTooDeep, rfl⟩ := Verdict.mk.inj (isVerdict.symm.trans fails)
  have leavesRest : Reading.rest (readWithin maxHeight (used ++ rest)) = rest := by
    rw [reads, leaves]
  have notEnd := readWithin_kind_ne_endOfInput (by decide) leavesRest
  obtain ⟨rest', parts'⟩ := exists_rest_of_agreeOn closed parts notEnd agree
  obtain ⟨height, rest'', accepted⟩ := (parse_eq_ok_iff _ _).mp parses
  rw [skip, parts'] at accepted
  have allows := (readWithin_steady maxHeight).grows used rest rest' _ leavesRest accepted
  rw [reads] at allows
  obtain ⟨rejection, rfl, isFault⟩ := Reading.exists_of_result_error isTooDeep
  exact allows isFault

/-- The limit is met only by what cannot become an expression of lawful height, and it is met
    by every tree that is taller. What is wrong without it is told in the same way, unless the
    limit is met before. -/
theorem limit_refuses_only_tall (tokens : List Token) (start : Nat)
    (inside : start < (Token.closed tokens).length) :
    let stream := ofTokens tokens
    ((∀ limit, stream.unread.length < limit →
        stream.verdict limit start = stream.unlimited start) ∧
      (stream.unlimited start).result ≠ .error .tooDeep) ∧
    (∀ stop, stream.FailsAt start .tooDeep stop →
      ∀ other, AgreeOn start stop (Token.closed tokens) (Token.closed other) →
        ∀ expr, ((ofTokens other).skip start).parse ≠ .ok expr) ∧
    (∀ expr, (stream.unlimited start).result = .ok expr →
      (expr.height ≤ 128 → stream.verdict maxHeight start = stream.unlimited start) ∧
        (128 < expr.height → ∃ stop, stream.FailsAt start .tooDeep stop)) ∧
    ∀ fault stop, stream.unlimited start = ⟨.error fault, stop⟩ →
      stream.FailsAt start fault stop ∨
        ∃ sooner, sooner ≤ stop ∧ stream.FailsAt start .tooDeep sooner := by
  intro stream
  have inside' : start ≤ stream.unread.length := by
    rw [← toTokens_ofTokens, toTokens, List.length_append, List.length_singleton] at inside
    exact Nat.le_of_lt_succ inside
  refine ⟨⟨fun limit => verdict_eq_unlimited, result_ne_tooDeep (Nat.lt_succ_self _)⟩, ?_, ?_, ?_⟩
  · intro stop fails other agree
    rw [← toTokens_ofTokens, ← toTokens_ofTokens] at agree
    exact parse_ne_ok_of_tooDeep (final_ofTokens other) fails.verdict agree
  · intro expr gives
    refine ⟨verdict_eq_unlimited_of_low gives, fun tall => ?_⟩
    obtain same | ⟨stop, fails, _⟩ := verdict_eq_unlimited_or stream start
    · have low : expr.height ≤ 128 := height_le_of_verdict (by decide) (same ▸ gives)
      omega
    · exact ⟨stop, failsAt_of_verdict inside' fails⟩
  · intro fault stop without
    obtain same | ⟨sooner, fails, order⟩ := verdict_eq_unlimited_or stream start
    · exact .inl (failsAt_of_verdict inside' (same.trans without))
    · rw [without] at order
      exact .inr ⟨sooner, order, failsAt_of_verdict inside' fails⟩

/-- Behind 128 unary operators no operand can be read, whatever follows it. -/
theorem limit_refuses_only_tall_unary :
    let bang : Token := ⟨.bang, "!", none, 1⟩
    let tokens : List Token := List.replicate 128 bang ++ [⟨.keyword .nilWord, "nil", none, 1⟩]
    0 < (Token.closed tokens).length ∧ (ofTokens tokens).FailsAt 0 .tooDeep 129 ∧
      ∀ more expr, ((ofTokens (tokens ++ more)).skip 0).parse ≠ .ok expr := by
  intro bang tokens
  have inside : 0 < (Token.closed tokens).length := by decide +kernel
  have stops : ((ofTokens tokens).verdict maxHeight 0).stop = 129 := by decide +kernel
  have tall : ((ofTokens tokens).unlimited 0).result.toOption.map Expr.height = some 129 := by
    decide +kernel
  have results := limit_refuses_only_tall tokens 0 inside
  obtain ⟨stop, fails⟩ : ∃ stop, (ofTokens tokens).FailsAt 0 .tooDeep stop := by
    cases gives : ((ofTokens tokens).unlimited 0).result with
    | error => simp [gives, Except.toOption] at tall
    | ok expr =>
        obtain isTall : expr.height = 129 := by simpa [gives, Except.toOption] using tall
        exact (results.2.2.1 expr gives).2 (by omega)
  obtain rfl : stop = 129 := by rw [← stops, fails.verdict]
  refine ⟨inside, fails, fun more => results.2.1 129 fails (tokens ++ more) ?_⟩
  intro place _ below
  have inTokens : place < tokens.length := by simpa [tokens] using below
  rw [Token.getElem?_closed inTokens, Token.getElem?_closed (by simp; omega),
    List.getElem?_append_left inTokens]

end TokenStream

end Reckoner
