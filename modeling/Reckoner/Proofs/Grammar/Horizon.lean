import Reckoner.Proofs.Grammar.Lookahead

/-! # Nothing beyond the horizon

What parsing finds in a list of tokens depends on those that it reads and on the one that it
stops at. Of two lists that agree so far the same is found, however they go on. An end token
is as far as anything is looked for, so behind it nothing can change a tree, a fault or the
place of a next statement.
-/

namespace Reckoner

open Grammar

namespace TokenStream

theorem AgreeOn.mono {first behind first' behind' : Nat} {one other : List Token}
    (agree : AgreeOn first behind one other) (later : first ≤ first') (sooner : behind' ≤ behind) :
    AgreeOn first' behind' one other := by
  intro place atLeast below
  exact agree place (Nat.le_trans later atLeast) (Nat.lt_of_lt_of_le below sooner)

end TokenStream

@[simp] theorem Reading.rest_leaving (rest : List Token) (reading : Reading) :
    Reading.rest (Reading.leaving rest reading) = rest := by
  cases reading with
  | ok => rfl
  | error => rfl

@[simp] theorem Reading.result_leaving (rest : List Token) (reading : Reading) :
    Reading.result (Reading.leaving rest reading) = Reading.result reading := by
  cases reading with
  | ok => rfl
  | error => rfl

namespace TokenStream

variable {stream other : TokenStream} {start : Nat}

theorem start_le_stop (limit : Nat) (stream : TokenStream) (start : Nat) :
    start ≤ (stream.verdict limit start).stop :=
  Nat.le_add_right start _

theorem verdict_eq_of_agreeOn {limit : Nat} (positive : 0 < limit)
    (closed : stream.final.kind = .endOfInput) (closed' : other.final.kind = .endOfInput)
    (agree : AgreeOn start ((stream.verdict limit start).stop + 1)
      stream.toTokens other.toTokens) :
    other.verdict limit start = stream.verdict limit start := by
  obtain ⟨used, rest, reading, parts, reads, leaves, isVerdict⟩ := exists_reading limit stream start
  rw [isVerdict] at agree ⊢
  have leavesRest : Reading.rest (readWithin limit (used ++ rest)) = rest := by rw [reads, leaves]
  have notEnd := readWithin_kind_ne_endOfInput positive leavesRest
  obtain ⟨rest', parts'⟩ :=
    exists_rest_of_agreeOn closed' parts notEnd (agree.mono (Nat.le_refl _) (Nat.le_succ _))
  have same : upcoming rest = upcoming rest' := by
    have sameNext := upcoming_eq_of_agreeOn closed closed' (Nat.le_add_right _ _) agree
    rwa [drop_stop parts, drop_stop parts'] at sameNext
  have reads' := readWithin_local limit used rest rest' leavesRest same
  rw [verdict_eq parts' reads' (Reading.rest_leaving _ _), Reading.result_leaving, reads]

theorem parse_eq_of_agreeOn (closed : stream.final.kind = .endOfInput)
    (closed' : other.final.kind = .endOfInput) (inside : start ≤ stream.unread.length)
    (agree : AgreeOn start ((stream.verdict maxHeight start).stop + 1)
      stream.toTokens other.toTokens) :
    (other.skip start).parse = (stream.skip start).parse := by
  have same := verdict_eq_of_agreeOn (by decide) closed closed' agree
  cases isResult : (stream.verdict maxHeight start).result with
  | ok expr =>
      rw [(parse_eq_ok_iff_verdict stream start expr).mpr isResult]
      exact (parse_eq_ok_iff_verdict other start expr).mpr (same ▸ isResult)
  | error fault =>
      have fails : stream.verdict maxHeight start =
          ⟨.error fault, (stream.verdict maxHeight start).stop⟩ := by rw [← isResult]
      obtain ⟨anchor, found, told⟩ := parse_eq_error_of_verdict inside fails
      have found' : other.toTokens[(stream.verdict maxHeight start).stop]? = some anchor := by
        rw [← agree _ (start_le_stop _ _ _) (Nat.lt_succ_self _), found]
      have inside' : start ≤ other.unread.length := by
        have order := start_le_stop maxHeight stream start
        have below := (List.getElem?_eq_some_iff.mp found').1
        simp only [toTokens, List.length_append, List.length_singleton] at below
        omega
      obtain ⟨anchor', found'', told'⟩ := parse_eq_error_of_verdict inside' (same.trans fails)
      obtain rfl : anchor = anchor' := Option.some.inj (found'.symm.trans found'')
      rw [told, told']

end TokenStream

namespace Grammar

/-- A statement can begin between the token and those behind it. -/
def Boundary (token : Token) (rest : List Token) : Prop :=
  token.kind = .semicolon ∨ ∃ next ∈ rest.head?, next.kind.startsStatement = true

theorem skipStatement_of_boundary {token : Token} {rest : List Token}
    (notEnd : token.kind ≠ .endOfInput) (boundary : Boundary token rest) :
    skipStatement (token :: rest) = rest := by
  cases rest with
  | nil => simp [skipStatement, notEnd]
  | cons next rest =>
      have stops : token.kind = .semicolon ∨ next.kind.startsStatement = true := by
        simpa [Boundary] using boundary
      rw [skipStatement, if_neg notEnd, if_pos stops]

theorem skipStatement_of_not_boundary {token : Token} {rest : List Token}
    (notEnd : token.kind ≠ .endOfInput) (notBoundary : ¬ Boundary token rest) :
    skipStatement (token :: rest) = skipStatement rest := by
  cases rest with
  | nil => simp [skipStatement, notEnd]
  | cons next rest =>
      have goesOn : ¬ (token.kind = .semicolon ∨ next.kind.startsStatement = true) := by
        simpa [Boundary] using notBoundary
      rw [skipStatement, if_neg notEnd, if_neg goesOn]

theorem skipStatement_of_end {tokens : List Token} (atEnd : upcoming tokens = none) :
    skipStatement tokens = tokens := by
  cases tokens with
  | nil => rfl
  | cons token rest =>
      have isEnd : token.kind = .endOfInput := by simpa [upcoming, Option.filter_some] using atEnd
      cases rest with
      | nil => simp [skipStatement, isEnd]
      | cons => simp [skipStatement, isEnd]

theorem exists_skipped (tokens : List Token) :
    ∃ used, tokens = used ++ skipStatement tokens ∧
      (∀ token ∈ used, token.kind ≠ .endOfInput) ∧ (used = [] → upcoming tokens = none) := by
  induction tokens with
  | nil => exact ⟨[], rfl, by simp, fun _ => rfl⟩
  | cons token rest ih =>
      by_cases isEnd : token.kind = .endOfInput
      · have atEnd : upcoming (token :: rest) = none := by
          simp [upcoming, isEnd, Option.filter_some]
        rw [skipStatement_of_end atEnd]
        exact ⟨[], rfl, by simp, fun _ => atEnd⟩
      · by_cases boundary : Boundary token rest
        · rw [skipStatement_of_boundary isEnd boundary]
          exact ⟨[token], rfl, by simpa using isEnd, by simp⟩
        · rw [skipStatement_of_not_boundary isEnd boundary]
          obtain ⟨used, parts, notEnd, _⟩ := ih
          refine ⟨token :: used, ?_, List.forall_mem_cons.mpr ⟨isEnd, notEnd⟩, by simp⟩
          rw [List.cons_append, ← parts]

theorem Boundary.of_upcoming {token : Token} {rest rest' : List Token}
    (boundary : Boundary token rest) (same : upcoming rest = upcoming rest') :
    Boundary token rest' := by
  by_contra notBoundary
  simp only [Boundary, not_or, not_exists, not_and] at notBoundary
  obtain isSemicolon | ⟨next, isHead, starts⟩ := boundary
  · exact notBoundary.1 isSemicolon
  · refine forall_head?_of_upcoming same.symm ?_ notBoundary.2 next isHead starts
    intro token isEnd
    simp [isEnd, Kind.startsStatement]

/-- The search for a statement looks no further than to the token that it stops at. -/
theorem skipStatement_local {used rest rest' : List Token}
    (leaves : skipStatement (used ++ rest) = rest) (same : upcoming rest = upcoming rest') :
    skipStatement (used ++ rest') = rest' := by
  induction used with
  | nil =>
      rw [List.nil_append] at leaves ⊢
      obtain ⟨used, parts, _, atEnd⟩ := exists_skipped rest
      rw [leaves] at parts
      exact skipStatement_of_end (same ▸ atEnd (List.self_eq_append_left.mp parts))
  | cons token used ih =>
      rw [List.cons_append] at leaves ⊢
      have notEnd : token.kind ≠ .endOfInput := by
        obtain ⟨own, parts, notEnd, _⟩ := exists_skipped (token :: (used ++ rest))
        rw [leaves, ← List.cons_append] at parts
        obtain rfl := List.append_cancel_right parts
        exact notEnd token List.mem_cons_self
      have sameNext := upcoming_append same used
      by_cases boundary : Boundary token (used ++ rest)
      · rw [skipStatement_of_boundary notEnd boundary] at leaves
        rw [skipStatement_of_boundary notEnd (boundary.of_upcoming sameNext)]
        obtain rfl : used = [] := List.append_left_eq_self.mp leaves
        rfl
      · rw [skipStatement_of_not_boundary notEnd boundary] at leaves
        rw [skipStatement_of_not_boundary notEnd
          fun boundary' => boundary (boundary'.of_upcoming sameNext.symm)]
        exact ih leaves

end Grammar

namespace TokenStream

variable {stream other : TokenStream} {start ending : Nat} {token : Token}

theorem stop_le_of_found {limit : Nat} (positive : 0 < limit) (order : start ≤ ending)
    (found : stream.toTokens[ending]? = some token) (isEnd : token.kind = .endOfInput) :
    (stream.verdict limit start).stop ≤ ending := by
  obtain ⟨used, rest, reading, parts, reads, leaves, isVerdict⟩ := exists_reading limit stream start
  have notEnd := readWithin_kind_ne_endOfInput positive (by rw [reads, leaves])
  rw [isVerdict]
  exact stop_le_of_endOfInput parts notEnd order found isEnd

theorem nextStatement_of_agreeOn (closed : stream.final.kind = .endOfInput)
    (closed' : other.final.kind = .endOfInput) (order : start ≤ ending)
    (found : stream.toTokens[ending]? = some token) (isEnd : token.kind = .endOfInput)
    (agree : AgreeOn start (ending + 1) stream.toTokens other.toTokens) :
    ∃ place, start ≤ place ∧ place ≤ ending ∧
      (stream.skip start).nextStatement = stream.skip place ∧
      (other.skip start).nextStatement = other.skip place := by
  obtain ⟨used, parts, notEnd, _⟩ := exists_skipped (stream.unread.drop start)
  have before := stop_le_of_endOfInput parts notEnd order found isEnd
  obtain ⟨rest', parts'⟩ := exists_rest_of_agreeOn closed' parts notEnd
    (agree.mono (Nat.le_refl _) (by omega))
  have same := upcoming_eq_of_agreeOn closed closed' (Nat.le_add_right start used.length)
    (agree.mono (Nat.le_refl _) (by omega))
  rw [drop_stop parts, drop_stop parts'] at same
  refine ⟨start + used.length, Nat.le_add_right _ _, before, ?_, ?_⟩
  · rw [skip, skip, nextStatement, drop_stop parts]
  · have skipped := skipStatement_local (by rw [← parts]) same
    rw [skip, skip, nextStatement, drop_stop parts', parts', skipped]

theorem iterate_nextStatement_of_agreeOn (closed : stream.final.kind = .endOfInput)
    (closed' : other.final.kind = .endOfInput) (order : start ≤ ending)
    (found : stream.toTokens[ending]? = some token) (isEnd : token.kind = .endOfInput)
    (agree : AgreeOn start (ending + 1) stream.toTokens other.toTokens) (count : Nat) :
    ∃ place, start ≤ place ∧ place ≤ ending ∧
      nextStatement^[count] (stream.skip start) = stream.skip place ∧
      nextStatement^[count] (other.skip start) = other.skip place := by
  induction count with
  | zero => exact ⟨start, Nat.le_refl _, order, rfl, rfl⟩
  | succ count ih =>
      obtain ⟨place, atLeast, atMost, reached, reached'⟩ := ih
      obtain ⟨place', atLeast', atMost', next, next'⟩ := nextStatement_of_agreeOn closed closed'
        atMost found isEnd (agree.mono atLeast (Nat.le_refl _))
      refine ⟨place', Nat.le_trans atLeast atLeast', atMost', ?_, ?_⟩
      · rw [Function.iterate_succ_apply', reached, next]
      · rw [Function.iterate_succ_apply', reached', next']

/-- Parsing looks at no token behind the one that it stops at: any list that agrees up to there
    gives the same tree, or the same fault at the same token. Nothing behind an end token
    changes what is found, nor where a next statement is found, however often one is looked
    for. -/
theorem parse_looks_one_ahead (tokens : List Token) (start : Nat)
    (inside : start < (Token.closed tokens).length) :
    (∀ other, AgreeOn start (((ofTokens tokens).verdict maxHeight start).stop + 1)
          (Token.closed tokens) (Token.closed other) →
        (ofTokens other).verdict maxHeight start = (ofTokens tokens).verdict maxHeight start ∧
          ((ofTokens other).skip start).parse = ((ofTokens tokens).skip start).parse) ∧
      ∀ other ending token, start ≤ ending → (Token.closed tokens)[ending]? = some token →
        token.kind = .endOfInput →
        AgreeOn start (ending + 1) (Token.closed tokens) (Token.closed other) →
        ∀ count, ∃ place, start ≤ place ∧ place ≤ ending ∧
          nextStatement^[count] ((ofTokens tokens).skip start) = (ofTokens tokens).skip place ∧
          nextStatement^[count] ((ofTokens other).skip start) = (ofTokens other).skip place ∧
          (ofTokens other).verdict maxHeight place = (ofTokens tokens).verdict maxHeight place ∧
          ((ofTokens other).skip place).parse = ((ofTokens tokens).skip place).parse := by
  have closed := final_ofTokens tokens
  have length : (ofTokens tokens).toTokens.length = (ofTokens tokens).unread.length + 1 := by
    simp [toTokens]
  rw [← toTokens_ofTokens] at inside ⊢
  refine ⟨fun other agree => ?_, ?_⟩
  · rw [← toTokens_ofTokens] at agree
    have closed' := final_ofTokens other
    exact ⟨verdict_eq_of_agreeOn (by decide) closed closed' agree,
      parse_eq_of_agreeOn closed closed' (by omega) agree⟩
  · intro other ending token order found isEnd agree count
    rw [← toTokens_ofTokens other] at agree
    have closed' := final_ofTokens other
    obtain ⟨place, atLeast, atMost, reached, reached'⟩ :=
      iterate_nextStatement_of_agreeOn closed closed' order found isEnd agree count
    have below := (List.getElem?_eq_some_iff.mp found).1
    have stops : ((ofTokens tokens).verdict maxHeight place).stop ≤ ending :=
      stop_le_of_found (by decide) atMost found isEnd
    have agree' := agree.mono atLeast (Nat.succ_le_succ stops)
    exact ⟨place, atLeast, atMost, reached, reached',
      verdict_eq_of_agreeOn (by decide) closed closed' agree',
      parse_eq_of_agreeOn closed closed' (by omega) agree'⟩

/-- An operator and an operand behind an end token do not go on the expression before it. -/
theorem parse_looks_one_ahead_stray_end :
    let one : Token := ⟨.number, "1", some (.number .nan), 1⟩
    let tokens : List Token := [one, .endOfInput 1, ⟨.plus, "+", none, 2⟩, one]
    0 < (Token.closed tokens).length ∧ ((ofTokens tokens).verdict maxHeight 0).stop = 1 ∧
      ((ofTokens [one, .endOfInput 1]).skip 0).parse = ((ofTokens tokens).skip 0).parse := by
  intro one tokens
  have inside : 0 < (Token.closed tokens).length := by decide
  have stops : ((ofTokens tokens).verdict maxHeight 0).stop = 1 := by decide +kernel
  have agree : AgreeOn 0 2 (Token.closed tokens) (Token.closed [one, .endOfInput 1]) := by
    intro place _ below
    obtain rfl | rfl : place = 0 ∨ place = 1 := by omega
    · rfl
    · rfl
  have same := (parse_looks_one_ahead tokens 0 inside).1 [one, .endOfInput 1] (by rwa [stops])
  exact ⟨inside, stops, same.2⟩

end TokenStream

end Reckoner
