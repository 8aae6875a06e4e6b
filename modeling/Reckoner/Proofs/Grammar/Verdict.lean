import Reckoner.Proofs.Grammar.Interruption

/-! # Verdicts

Parsing that starts at some token of a list stops at some later token, with a tree or with a
fault. Places are counted in the list with its end token behind it. The tokens from the start
up to the stop have been read, and none of them is an end token; the token at the stop has only
been looked at.
-/

namespace Reckoner

open Grammar

/-- How parsing ends, and the place of the token that it stops at. -/
structure Verdict where
  result : Except SyntaxFault Expr
  stop : Nat

def Reading.result : Reading → Except SyntaxFault Expr
  | .ok parsed => .ok parsed.expr
  | .error rejection => .error rejection.fault

namespace Grammar

/-- The next token that can be read. An end token cannot, so it counts as none. -/
def upcoming (rest : List Token) : Option Token :=
  rest.head?.filter fun token => token.kind ≠ .endOfInput

theorem readWithin_kind_ne_endOfInput {limit : Nat} (positive : 0 < limit)
    {used rest : List Token} (leaves : Reading.rest (readWithin limit (used ++ rest)) = rest) :
    ∀ token ∈ used, token.kind ≠ .endOfInput := by
  cases reads : readWithin limit (used ++ rest) with
  | ok parsed =>
      rw [reads] at leaves
      obtain ⟨own, parts, derivation⟩ := (readWithin_sound positive _ _ reads).1.derived
      obtain rfl : used = own := List.append_cancel_right (parts.trans (by rw [← leaves]; rfl))
      exact derivation.kind_ne_endOfInput
  | error rejection =>
      rw [reads] at leaves
      obtain ⟨own, parts, broken⟩ := readWithin_breaks positive _ _ reads
      obtain rfl : used = own := List.append_cancel_right (parts.trans (by rw [← leaves]; rfl))
      exact broken.kind_ne_endOfInput

end Grammar

namespace TokenStream

/-- Parse from the token at `start`, with trees of at most the given height. -/
def verdict (limit : Nat) (stream : TokenStream) (start : Nat) : Verdict :=
  let unread := stream.unread.drop start
  let reading := readWithin limit unread
  ⟨Reading.result reading, start + (unread.length - (Reading.rest reading).length)⟩

theorem verdict_eq {limit : Nat} {stream : TokenStream} {start : Nat} {used rest : List Token}
    {reading : Reading} (parts : stream.unread.drop start = used ++ rest)
    (reads : readWithin limit (used ++ rest) = reading) (leaves : Reading.rest reading = rest) :
    stream.verdict limit start = ⟨Reading.result reading, start + used.length⟩ := by
  simp only [verdict, parts, reads, leaves, List.length_append, Nat.add_sub_cancel]

theorem exists_reading (limit : Nat) (stream : TokenStream) (start : Nat) :
    ∃ used rest reading, stream.unread.drop start = used ++ rest ∧
      readWithin limit (used ++ rest) = reading ∧ Reading.rest reading = rest ∧
      stream.verdict limit start = ⟨Reading.result reading, start + used.length⟩ := by
  obtain ⟨used, parts⟩ := readWithin_recedes limit (stream.unread.drop start)
  refine ⟨used, _, _, parts.symm, rfl, ?_, verdict_eq parts.symm rfl ?_⟩
  · rw [parts]
  · rw [parts]

theorem drop_stop {stream : TokenStream} {start : Nat} {used rest : List Token}
    (parts : stream.unread.drop start = used ++ rest) :
    stream.unread.drop (start + used.length) = rest := by
  rw [← List.drop_drop, parts, List.drop_left]

theorem stop_le {stream : TokenStream} {start : Nat} {used rest : List Token}
    (inside : start ≤ stream.unread.length) (parts : stream.unread.drop start = used ++ rest) :
    start + used.length ≤ stream.unread.length := by
  have lengths := congrArg List.length parts
  simp only [List.length_drop, List.length_append] at lengths
  omega

theorem parse_eq_ok_iff_verdict (stream : TokenStream) (start : Nat) (expr : Expr) :
    (stream.skip start).parse = .ok expr ↔
      (stream.verdict maxHeight start).result = .ok expr := by
  unfold parse verdict skip
  split
  · rename_i parsed read
    simp [read, Reading.result]
  · rename_i rejection read
    simp [read, Reading.result]

/-- A fault is told once, at the token that parsing stops at. -/
theorem parse_eq_error_of_verdict {stream : TokenStream} {start stop : Nat} {fault : SyntaxFault}
    (inside : start ≤ stream.unread.length)
    (fails : stream.verdict maxHeight start = ⟨.error fault, stop⟩) :
    ∃ anchor, stream.toTokens[stop]? = some anchor ∧
      (stream.skip start).parse = .error (.syntactic anchor.line
        (if anchor.kind = .endOfInput then .atEnd else .atLexeme anchor.lexeme)
        fault.message) := by
  obtain ⟨used, rest, reading, parts, reads, leaves, isVerdict⟩ :=
    exists_reading maxHeight stream start
  obtain ⟨isFault, rfl⟩ := Verdict.mk.inj (isVerdict.symm.trans fails)
  cases reading with
  | ok parsed => cases isFault
  | error rejection =>
      obtain rfl : rejection.fault = fault := Except.error.inj isFault
      refine ⟨rest.headD stream.final, ?_, ?_⟩
      · rw [getElem?_toTokens (stop_le inside parts), drop_stop parts]
      · simp only [parse, skip, parts, reads, diagnostic, current]
        rw [show rejection.rest = rest from leaves]

/-- The lists have the same tokens at the places from `first` on, `behind` excluded. -/
def AgreeOn (first behind : Nat) (one other : List Token) : Prop :=
  ∀ place, first ≤ place → place < behind → one[place]? = other[place]?

theorem upcoming_drop {stream : TokenStream} (closed : stream.final.kind = .endOfInput)
    (place : Nat) : upcoming (stream.unread.drop place) =
      stream.toTokens[place]?.filter fun token => token.kind ≠ .endOfInput := by
  rw [upcoming, List.head?_drop, toTokens, List.getElem?_append]
  split
  · rfl
  · rename_i behind
    rw [List.getElem?_eq_none (Nat.le_of_not_lt behind), List.getElem?_singleton]
    split
    · simp [Option.filter_some, closed]
    · rfl

theorem upcoming_eq_of_agreeOn {stream other : TokenStream}
    (closed : stream.final.kind = .endOfInput) (closed' : other.final.kind = .endOfInput)
    {first place : Nat} (order : first ≤ place)
    (agree : AgreeOn first (place + 1) stream.toTokens other.toTokens) :
    upcoming (stream.unread.drop place) = upcoming (other.unread.drop place) := by
  rw [upcoming_drop closed, upcoming_drop closed', agree place order (Nat.lt_succ_self place)]

theorem getElem?_toTokens_of_used {stream : TokenStream} {start index : Nat}
    {used rest : List Token} (parts : stream.unread.drop start = used ++ rest)
    (below : index < used.length) : stream.toTokens[start + index]? = some used[index] := by
  have inUnread : stream.unread[start + index]? = some used[index] := by
    rw [← List.getElem?_drop, parts, List.getElem?_append_left below,
      List.getElem?_eq_getElem below]
  have place := (List.getElem?_eq_some_iff.mp inUnread).1
  rw [toTokens, List.getElem?_append_left place, inUnread]

/-- What was read of one list stands in the other, if they agree that far. -/
theorem exists_rest_of_agreeOn {stream other : TokenStream}
    (closed : other.final.kind = .endOfInput) {start : Nat} {used rest : List Token}
    (parts : stream.unread.drop start = used ++ rest)
    (notEnd : ∀ token ∈ used, token.kind ≠ .endOfInput)
    (agree : AgreeOn start (start + used.length) stream.toTokens other.toTokens) :
    ∃ rest', other.unread.drop start = used ++ rest' := by
  suffices begins : used <+: other.unread.drop start by
    obtain ⟨rest', parts'⟩ := begins
    exact ⟨rest', parts'.symm⟩
  rw [List.prefix_iff_getElem?]
  intro index below
  have next : upcoming (other.unread.drop (start + index)) = some used[index] := by
    rw [upcoming_drop closed, ← agree _ (by omega) (by omega),
      getElem?_toTokens_of_used parts below]
    simp [notEnd]
  rw [List.getElem?_drop, ← List.head?_drop]
  exact (Option.filter_eq_some_iff.mp next).1

theorem stop_le_of_endOfInput {stream : TokenStream} {start ending : Nat}
    {used rest : List Token} (parts : stream.unread.drop start = used ++ rest)
    (notEnd : ∀ token ∈ used, token.kind ≠ .endOfInput) (order : start ≤ ending)
    {token : Token} (found : stream.toTokens[ending]? = some token)
    (isEnd : token.kind = .endOfInput) : start + used.length ≤ ending := by
  by_contra beyond
  obtain ⟨index, rfl⟩ := Nat.exists_eq_add_of_le order
  have below : index < used.length := by omega
  have same := (getElem?_toTokens_of_used parts below).symm.trans found
  exact notEnd _ (List.getElem_mem below) (Option.some.inj same ▸ isEnd)

end TokenStream

end Reckoner
