import Reckoner.Proofs.Grammar.Limit

/-! # The earliest place of a fault

What has been read when a fault is found could have become an expression, and with the token
that the fault is told of it no longer could. So no fault is found later than it can be known.
Which of the two faults it is hangs on the last token that was read: behind an operator or an
opening parenthesis an operand is missed, behind an operand a closing parenthesis.
-/

namespace Reckoner

open Grammar

theorem SyntaxFault.message_injective : Function.Injective SyntaxFault.message := by
  intro fault fault' same
  cases fault <;> cases fault' <;> first | rfl | (simp [message] at same)

/-- The token before `stop` is one of those from `start` on, and has the property. -/
def ReadLast (property : Token → Prop) (tokens : List Token) (start stop : Nat) : Prop :=
  start < stop ∧ ∃ last, tokens[stop - 1]? = some last ∧ property last

theorem ReadLast.not_awaits {tokens : List Token} {start stop : Nat}
    (ends : ReadLast Token.EndsOperand tokens start stop) :
    ¬ (stop = start ∨ ReadLast Token.AwaitsOperand tokens start stop) := by
  obtain ⟨order, last, isLast, endsOperand⟩ := ends
  rintro (rfl | ⟨_, last', isLast', awaits⟩)
  · exact Nat.lt_irrefl _ order
  · obtain rfl := Option.some.inj (isLast.symm.trans isLast')
    exact endsOperand.not_awaitsOperand awaits

namespace TokenStream

variable {stream other : TokenStream} {start stop : Nat}

theorem unlimited_eq_of_agreeOn (closed : stream.final.kind = .endOfInput)
    (closed' : other.final.kind = .endOfInput)
    (agree : AgreeOn start ((stream.unlimited start).stop + 1) stream.toTokens other.toTokens) :
    other.unlimited start = stream.unlimited start := by
  let limit := max stream.unread.length other.unread.length + 1
  have same : stream.verdict limit start = stream.unlimited start :=
    verdict_eq_unlimited (by omega)
  have same' : other.verdict limit start = other.unlimited start :=
    verdict_eq_unlimited (by omega)
  rw [← same] at agree ⊢
  rw [← same']
  exact verdict_eq_of_agreeOn (Nat.succ_pos _) closed closed' agree

theorem unread_ofTokens {tokens : List Token}
    (notEnd : EndsWith (fun last => last.kind ≠ .endOfInput) tokens) :
    (ofTokens tokens).unread = tokens := by
  obtain ⟨front, last, rfl, isOther⟩ := notEnd
  simp [ofTokens, isOther]

theorem unlimited_of_derives (before : List Token) {tokens : List Token} {expr : Expr}
    (derivation : Derives (.joined .equality) tokens expr) :
    (ofTokens (before ++ tokens)).unlimited before.length =
      ⟨.ok expr, before.length + tokens.length⟩ := by
  have notEnd : EndsWith (fun last => last.kind ≠ .endOfInput) tokens := by
    obtain ⟨front, last, rfl, ends⟩ := derivation.endsWith_endsOperand
    exact ⟨front, last, rfl, ends.kind_ne_endOfInput⟩
  have unread := unread_ofTokens (notEnd.append_left before)
  have parts : (ofTokens (before ++ tokens)).unread.drop before.length = tokens ++ [] := by
    rw [unread, List.drop_left, List.append_nil]
  have low : expr.height ≤ (ofTokens (before ++ tokens)).unread.length + 1 := by
    have := derivation.height_le_length
    rw [unread, List.length_append]
    omega
  have leads := derivation.leads low _ (Nat.le_succ_of_le low)
  exact verdict_eq parts (leads.read_eq (by simp [Phrase.EndsBefore])) rfl

theorem exists_interrupted {limit : Nat} (positive : 0 < limit) {fault : SyntaxFault}
    (fails : stream.verdict limit start = ⟨.error fault, stop⟩) :
    ∃ used rest, stream.unread.drop start = used ++ rest ∧ stop = start + used.length ∧
      Interrupted limit limit (.joined .equality) used fault := by
  obtain ⟨used, rest, reading, parts, reads, leaves, isVerdict⟩ := exists_reading limit stream start
  obtain ⟨isFault, rfl⟩ := Verdict.mk.inj (isVerdict.symm.trans fails)
  obtain ⟨rejection, rfl, rfl⟩ := Reading.exists_of_result_error isFault
  obtain ⟨own, ownParts, broken⟩ := readWithin_breaks positive _ _ reads
  obtain rfl : rejection.rest = rest := leaves
  obtain rfl : used = own := List.append_cancel_right ownParts
  exact ⟨used, _, parts, rfl, broken⟩

theorem take_stop {used rest : List Token} (inside : start ≤ stream.unread.length)
    (parts : stream.unread.drop start = used ++ rest) :
    stream.toTokens.take (start + used.length) = stream.unread.take start ++ used := by
  rw [toTokens, List.take_append_of_le_length (stop_le inside parts), List.take_add, parts,
    List.take_left]

/-- Whatever was read before a fault can go on to an expression. -/
theorem exists_continuation {limit : Nat} (positive : 0 < limit) {fault : SyntaxFault}
    (inside : start ≤ stream.unread.length)
    (fails : stream.verdict limit start = ⟨.error fault, stop⟩) :
    ∃ more expr, (ofTokens (stream.toTokens.take stop ++ more)).unlimited start =
      ⟨.ok expr, stop + more.length⟩ := by
  obtain ⟨used, rest, parts, rfl, broken⟩ := exists_interrupted positive fails
  obtain ⟨more, expr, derivation⟩ := broken.exists_completion
  have finds := unlimited_of_derives (stream.unread.take start) derivation
  rw [List.length_take_of_le inside, List.length_append, ← Nat.add_assoc, ← List.append_assoc,
    ← take_stop inside parts] at finds
  exact ⟨more, expr, finds⟩

theorem readLast_of_endsWith {property : Token → Prop} {used rest : List Token}
    (parts : stream.unread.drop start = used ++ rest) (endsWith : EndsWith property used) :
    ReadLast property stream.toTokens start (start + used.length) := by
  obtain ⟨front, last, rfl, holds⟩ := endsWith
  have length : (front ++ [last]).length = front.length + 1 := by simp
  refine ⟨by omega, last, ?_, holds⟩
  have found := getElem?_toTokens_of_used parts (show front.length < _ by omega)
  rw [length]
  simpa using found

theorem exists_failsAt {line : Nat} {location : Location} {fault : SyntaxFault}
    (inside : start ≤ stream.unread.length)
    (refused : (stream.skip start).parse = .error (.syntactic line location fault.message)) :
    ∃ stop, stream.FailsAt start fault stop := by
  cases isResult : stream.verdict maxHeight start with
  | mk result stop =>
      cases result with
      | ok expr =>
          have gives := (parse_eq_ok_iff_verdict stream start expr).mpr (by rw [isResult])
          cases refused.symm.trans gives
      | error found =>
          have fails := failsAt_of_verdict inside isResult
          obtain ⟨anchor, _, told⟩ := fails.told
          obtain ⟨-, -, messages⟩ :=
            Diagnostic.syntactic.inj (Except.error.inj (told.symm.trans refused))
          obtain rfl := SyntaxFault.message_injective messages
          exact ⟨stop, fails⟩

theorem FailsAt.unlimited {fault : SyntaxFault} (fails : stream.FailsAt start fault stop)
    (notDeep : fault ≠ .tooDeep) : stream.unlimited start = ⟨.error fault, stop⟩ := by
  obtain same | ⟨_, isDeep, _⟩ := verdict_eq_unlimited_or stream start
  · rw [← same, fails.verdict]
  · have faults := congrArg Verdict.result (fails.verdict.symm.trans isDeep)
    exact absurd (Except.error.inj faults) notDeep

/-- The last token that was read tells the two faults apart. -/
theorem FailsAt.fault_iff_readLast {fault : SyntaxFault} (fails : stream.FailsAt start fault stop)
    (notDeep : fault ≠ .tooDeep) :
    (fault = .missingOperand ↔
        stop = start ∨ ReadLast Token.AwaitsOperand stream.toTokens start stop) ∧
      (fault = .unclosedGroup ↔ ReadLast Token.EndsOperand stream.toTokens start stop) := by
  obtain ⟨used, rest, parts, rfl, broken⟩ := exists_interrupted (by decide) fails.verdict
  cases fault with
  | missingOperand =>
      have awaits : start + used.length = start ∨
          ReadLast Token.AwaitsOperand stream.toTokens start (start + used.length) := by
        obtain rfl | endsWith := broken.endsWith_awaitsOperand
        · exact .inl rfl
        · exact .inr (readLast_of_endsWith parts endsWith)
      refine ⟨iff_of_true rfl awaits, iff_of_false SyntaxFault.noConfusion ?_⟩
      exact fun ends => ends.not_awaits awaits
  | unclosedGroup =>
      have ends := readLast_of_endsWith parts broken.endsWith_endsOperand
      exact ⟨iff_of_false SyntaxFault.noConfusion ends.not_awaits, iff_of_true rfl ends⟩
  | tooDeep => exact absurd rfl notDeep

/-- A fault that is not for the depth is told, once, of the first token that no expression can
    have there. -/
theorem fault_is_earliest (tokens : List Token) (start : Nat)
    (inside : start < (Token.closed tokens).length) (line : Nat) (location : Location)
    (fault : SyntaxFault) (notDeep : fault ≠ .tooDeep)
    (refused : ((ofTokens tokens).skip start).parse =
      .error (.syntactic line location fault.message)) :
    ∃ stop, (ofTokens tokens).FailsAt start fault stop ∧
      (∃ more expr, (ofTokens ((Token.closed tokens).take stop ++ more)).unlimited start =
        ⟨.ok expr, stop + more.length⟩) ∧
      (∀ other, AgreeOn start (stop + 1) (Token.closed tokens) (Token.closed other) →
        ∀ expr, ((ofTokens other).unlimited start).result ≠ .ok expr) ∧
      (fault = .missingOperand ↔
        stop = start ∨ ReadLast Token.AwaitsOperand (Token.closed tokens) start stop) ∧
      (fault = .unclosedGroup ↔
        ReadLast Token.EndsOperand (Token.closed tokens) start stop) := by
  rw [← toTokens_ofTokens] at inside ⊢
  have inside' : start ≤ (ofTokens tokens).unread.length := by
    rw [toTokens, List.length_append, List.length_singleton] at inside
    exact Nat.le_of_lt_succ inside
  obtain ⟨stop, fails⟩ := exists_failsAt inside' refused
  have without := fails.unlimited notDeep
  refine ⟨stop, fails, exists_continuation (by decide) inside' fails.verdict, ?_,
    fails.fault_iff_readLast notDeep⟩
  intro other agree expr gives
  rw [← toTokens_ofTokens other] at agree
  have same := unlimited_eq_of_agreeOn (final_ofTokens tokens) (final_ofTokens other)
    (by rwa [without])
  rw [same, without] at gives
  cases gives

/-- A second operand in parentheses is told of as soon as it is seen, as what should have been
    the closing one. -/
theorem fault_is_earliest_unclosed :
    let one : Token := ⟨.number, "1", some (.number .nan), 1⟩
    let two : Token := ⟨.number, "2", some (.number .nan), 2⟩
    let tokens : List Token := [⟨.leftParen, "(", none, 1⟩, one, two, ⟨.rightParen, ")", none, 2⟩]
    0 < (Token.closed tokens).length ∧ SyntaxFault.unclosedGroup ≠ .tooDeep ∧
      ((ofTokens tokens).skip 0).parse =
        .error (.syntactic 2 (.atLexeme "2") SyntaxFault.unclosedGroup.message) ∧
      (ofTokens tokens).FailsAt 0 .unclosedGroup 2 ∧
      ∀ other, AgreeOn 0 3 (Token.closed tokens) (Token.closed other) →
        ∀ expr, ((ofTokens other).unlimited 0).result ≠ .ok expr := by
  intro one two tokens
  have inside : 0 < (Token.closed tokens).length := by decide
  have notDeep : SyntaxFault.unclosedGroup ≠ .tooDeep := by decide
  have refused : ((ofTokens tokens).skip 0).parse =
      .error (.syntactic 2 (.atLexeme "2") SyntaxFault.unclosedGroup.message) := by cbv
  have stops : ((ofTokens tokens).verdict maxHeight 0).stop = 2 := by decide +kernel
  obtain ⟨stop, fails, _, hopeless, _⟩ :=
    fault_is_earliest tokens 0 inside 2 (.atLexeme "2") .unclosedGroup notDeep refused
  obtain rfl : stop = 2 := by rw [← stops, fails.verdict]
  exact ⟨inside, notDeep, refused, fails, hopeless⟩

end TokenStream

end Reckoner
