import Mathlib.Order.Bounds.Basic
import Mathlib.Order.Nat
import Reckoner.Proofs.Grammar.Horizon

/-! # From statement to statement

Going on to the next statement leads to the nearest later place where one can begin. So every turn
gets further, up to the first end token, and there it stays. What is parsed behind some turns
depends on the tokens from there on and not on how the place was reached.
-/

namespace Reckoner

open Grammar

/-- The words that a statement can begin with. -/
def Kind.statementWords : List Kind :=
  [.keyword .classWord, .keyword .funWord, .keyword .varWord, .keyword .forWord, .keyword .ifWord,
    .keyword .whileWord, .keyword .printWord, .keyword .returnWord]

@[simp] theorem Kind.startsStatement_iff (kind : Kind) :
    kind.startsStatement = true ↔ kind ∈ statementWords := by
  cases kind with
  | keyword word => cases word <;> simp [startsStatement, statementWords]
  | _ => simp [startsStatement, statementWords]

namespace TokenStream

/-- A token of one of these kinds stands at the place. -/
def StandsAt (kinds : List Kind) (tokens : List Token) (place : Nat) : Prop :=
  ∃ token, tokens[place]? = some token ∧ token.kind ∈ kinds

/-- A statement can begin at the place, or the tokens end there. -/
def StatementAt (tokens : List Token) (place : Nat) : Prop :=
  StandsAt [.endOfInput] tokens place ∨ StandsAt [.semicolon] tokens (place - 1) ∨
    StandsAt Kind.statementWords tokens place

/-- The place that a turn leads to: the nearest later one where a statement can begin. An end token
    is not left any more. -/
inductive LeadsTo (tokens : List Token) (start : Nat) : Nat → Prop where
  | stays : StandsAt [.endOfInput] tokens start → LeadsTo tokens start start
  | goesOn {stop : Nat} : ¬ StandsAt [.endOfInput] tokens start →
      IsLeast {place | start < place ∧ StatementAt tokens place} stop → LeadsTo tokens start stop

/-- The first end token from the place on. -/
def FirstEnd (tokens : List Token) (start ending : Nat) : Prop :=
  IsLeast {place | start ≤ place ∧ StandsAt [.endOfInput] tokens place} ending

/-- How many tokens stand before the place that has been reached behind so many turns. -/
def placeBehind (stream : TokenStream) (start turns : Nat) : Nat :=
  stream.distance (nextStatement^[turns] (stream.skip start))

theorem standsAt_iff {kinds : List Kind} {tokens : List Token} {place : Nat} {token : Token}
    (found : tokens[place]? = some token) :
    StandsAt kinds tokens place ↔ token.kind ∈ kinds := by
  simp [StandsAt, found]

namespace LeadsTo

variable {tokens : List Token} {start stop : Nat}

theorem unique (leads : LeadsTo tokens start stop) {stop' : Nat}
    (leads' : LeadsTo tokens start stop') : stop = stop' := by
  cases leads with
  | stays isEnd =>
      cases leads' with
      | stays => rfl
      | goesOn notEnd => exact absurd isEnd notEnd
  | goesOn notEnd least =>
      cases leads' with
      | stays isEnd => exact absurd isEnd notEnd
      | goesOn _ least' => exact least.unique least'

theorem of_next (notEnd : ¬ StandsAt [.endOfInput] tokens start)
    (found : StatementAt tokens (start + 1)) : LeadsTo tokens start (start + 1) :=
  .goesOn notEnd ⟨⟨Nat.lt_succ_self start, found⟩, fun _ later => later.1⟩

theorem of_passed (notEnd : ¬ StandsAt [.endOfInput] tokens start)
    (passed : ¬ StatementAt tokens (start + 1)) (leads : LeadsTo tokens (start + 1) stop) :
    LeadsTo tokens start stop := by
  cases leads with
  | stays isEnd => exact absurd (.inl isEnd) passed
  | goesOn _ least =>
      refine .goesOn notEnd ⟨⟨Nat.lt_of_succ_lt least.1.1, least.1.2⟩, fun place later => ?_⟩
      apply least.2
      refine ⟨Nat.lt_of_le_of_ne later.1 ?_, later.2⟩
      rintro rfl
      exact passed later.2

end LeadsTo

variable {stream : TokenStream} {start : Nat}

theorem drop_succ_of_drop {token : Token} {rest : List Token}
    (parts : stream.unread.drop start = token :: rest) :
    start + 1 ≤ stream.unread.length ∧ stream.unread.drop (start + 1) = rest := by
  constructor
  · by_contra beyond
    simp [List.drop_eq_nil_of_le (show stream.unread.length ≤ start by omega)] at parts
  · rw [← List.drop_drop, parts]
    rfl

theorem statementAt_succ_iff (closed : stream.final.kind = .endOfInput) {token : Token}
    {rest : List Token} (parts : stream.unread.drop start = token :: rest) :
    StatementAt stream.toTokens (start + 1) ↔ Boundary token rest ∨ upcoming rest = none := by
  obtain ⟨within, behind⟩ := drop_succ_of_drop parts
  have here := getElem?_toTokens (Nat.le_of_succ_le within)
  have next := getElem?_toTokens within
  rw [parts] at here
  rw [behind] at next
  rw [StatementAt, standsAt_iff next, standsAt_iff next, Nat.add_sub_cancel, standsAt_iff here,
    or_comm]
  cases rest with
  | nil => simp [closed, upcoming]
  | cons other rest => simp [Boundary, upcoming, Option.filter_some]

theorem skipStatement_of_found {token : Token} {rest : List Token}
    (notEnd : token.kind ≠ .endOfInput) (found : Boundary token rest ∨ upcoming rest = none) :
    skipStatement (token :: rest) = rest := by
  by_cases boundary : Boundary token rest
  · exact skipStatement_of_boundary notEnd boundary
  · rw [skipStatement_of_not_boundary notEnd boundary]
    exact skipStatement_of_end (found.resolve_left boundary)

theorem exists_skipStatement_eq (closed : stream.final.kind = .endOfInput)
    (inside : start ≤ stream.unread.length) :
    ∃ stop ≤ stream.unread.length,
      skipStatement (stream.unread.drop start) = stream.unread.drop stop ∧
        LeadsTo stream.toTokens start stop := by
  generalize isRest : stream.unread.drop start = rest
  have here := getElem?_toTokens inside
  rw [isRest] at here
  -- By induction on the tokens that are left, which are also those behind every place that is
  -- passed by.
  induction rest generalizing start with
  | nil =>
      have isEnd : StandsAt [.endOfInput] stream.toTokens start := by
        simpa [standsAt_iff here] using closed
      exact ⟨start, inside, isRest.symm, .stays isEnd⟩
  | cons token rest ih =>
      obtain ⟨within, behind⟩ := drop_succ_of_drop isRest
      have next := statementAt_succ_iff closed isRest
      have isEnd : StandsAt [.endOfInput] stream.toTokens start ↔ token.kind = .endOfInput := by
        simp [standsAt_iff here]
      by_cases ends : token.kind = .endOfInput
      · refine ⟨start, inside, ?_, .stays (isEnd.mpr ends)⟩
        rw [isRest]
        exact skipStatement_of_end (by simp [upcoming, ends, Option.filter_some])
      by_cases found : StatementAt stream.toTokens (start + 1)
      · refine ⟨start + 1, within, ?_, .of_next (mt isEnd.mp ends) found⟩
        rw [behind]
        exact skipStatement_of_found ends (next.mp found)
      · have here' := getElem?_toTokens within
        rw [behind] at here'
        obtain ⟨stop, inside', skipped, leads⟩ := ih within behind here'
        refine ⟨stop, inside', ?_, .of_passed (mt isEnd.mp ends) found leads⟩
        rw [← skipped]
        exact skipStatement_of_not_boundary ends fun boundary => found (next.mpr (.inl boundary))

/-- One turn leads to the nearest place where a statement can begin. -/
theorem exists_leadsTo (closed : stream.final.kind = .endOfInput)
    (inside : start ≤ stream.unread.length) :
    ∃ stop ≤ stream.unread.length, (stream.skip start).nextStatement = stream.skip stop ∧
      LeadsTo stream.toTokens start stop := by
  obtain ⟨stop, inside', skipped, leads⟩ := exists_skipStatement_eq closed inside
  refine ⟨stop, inside', ?_, leads⟩
  simp only [nextStatement, skip, skipped]

theorem distance_skip {place : Nat} (inside : place ≤ stream.unread.length) :
    stream.distance (stream.skip place) = place := by
  simp [distance, skip]
  omega

theorem placeBehind_zero (inside : start ≤ stream.unread.length) :
    stream.placeBehind start 0 = start :=
  distance_skip inside

theorem turn (closed : stream.final.kind = .endOfInput) (inside : start ≤ stream.unread.length)
    (turns : Nat) :
    stream.placeBehind start turns ≤ stream.unread.length ∧
      nextStatement^[turns] (stream.skip start) = stream.skip (stream.placeBehind start turns) ∧
      LeadsTo stream.toTokens (stream.placeBehind start turns)
        (stream.placeBehind start (turns + 1)) := by
  have reached : ∃ place ≤ stream.unread.length,
      nextStatement^[turns] (stream.skip start) = stream.skip place := by
    induction turns with
    | zero => exact ⟨start, inside, rfl⟩
    | succ turns ih =>
        obtain ⟨place, inside', isPlace⟩ := ih
        obtain ⟨stop, inside'', isStop, -⟩ := exists_leadsTo closed inside'
        exact ⟨stop, inside'', by rw [Function.iterate_succ_apply', isPlace, isStop]⟩
  obtain ⟨place, inside', isPlace⟩ := reached
  obtain ⟨stop, inside'', isStop, leads⟩ := exists_leadsTo closed inside'
  have here : stream.placeBehind start turns = place := by
    rw [placeBehind, isPlace, distance_skip inside']
  have next : stream.placeBehind start (turns + 1) = stop := by
    rw [placeBehind, Function.iterate_succ_apply', isPlace, isStop, distance_skip inside'']
  rw [here, next]
  exact ⟨inside', isPlace, leads⟩

theorem exists_firstEnd (closed : stream.final.kind = .endOfInput)
    (inside : start ≤ stream.unread.length) :
    ∃ ending ≤ stream.unread.length, FirstEnd stream.toTokens start ending := by
  have last : StandsAt [.endOfInput] stream.toTokens stream.unread.length :=
    ⟨stream.final, by simp [toTokens], by simp [closed]⟩
  classical
  have someEnd : ∃ place, start ≤ place ∧ StandsAt [.endOfInput] stream.toTokens place :=
    ⟨_, inside, last⟩
  exact ⟨Nat.find someEnd, Nat.find_min' someEnd ⟨inside, last⟩, Nat.isLeast_find someEnd⟩

theorem LeadsTo.toward {tokens : List Token} {stop ending : Nat} (leads : LeadsTo tokens start stop)
    (first : FirstEnd tokens start ending) :
    FirstEnd tokens stop ending ∧ (start < ending → start < stop) ∧
      (start = ending → stop = ending) := by
  cases leads with
  | stays isEnd =>
      have atEnd : ending ≤ start := first.2 ⟨Nat.le_refl start, isEnd⟩
      exact ⟨first, fun before => absurd atEnd (Nat.not_le.mpr before), id⟩
  | goesOn notEnd least =>
      have later : start ≠ ending := by
        rintro rfl
        exact notEnd first.1.2
      have within : stop ≤ ending :=
        least.2 ⟨Nat.lt_of_le_of_ne first.1.1 later, .inl first.1.2⟩
      refine ⟨⟨⟨within, first.1.2⟩, fun place further => ?_⟩, fun _ => least.1.1,
        fun same => absurd same later⟩
      exact first.2 ⟨(Nat.le_of_lt least.1.1).trans further.1, further.2⟩

theorem placeBehind_toward (closed : stream.final.kind = .endOfInput)
    (inside : start ≤ stream.unread.length) {ending : Nat}
    (first : FirstEnd stream.toTokens start ending) (turns : Nat) :
    FirstEnd stream.toTokens (stream.placeBehind start turns) ending ∧
      min ending (start + turns) ≤ stream.placeBehind start turns := by
  -- By induction on the turns: the first end token stays ahead, and every turn before it is a step
  -- towards it.
  induction turns with
  | zero =>
      rw [placeBehind_zero inside]
      exact ⟨first, Nat.min_le_right _ _⟩
  | succ turns ih =>
      obtain ⟨ahead, far⟩ := ih
      obtain ⟨-, -, leads⟩ := turn closed inside turns
      obtain ⟨ahead', further, stays⟩ := leads.toward ahead
      refine ⟨ahead', ?_⟩
      rcases Nat.lt_or_eq_of_le ahead.1.1 with before | reached
      · have step := further before
        omega
      · rw [stays reached]
        exact Nat.min_le_left _ _

theorem ofTokens_drop (closed : stream.final.kind = .endOfInput) {place : Nat}
    (inside : place ≤ stream.unread.length) :
    ofTokens (stream.toTokens.drop place) = stream.skip place := by
  simp [ofTokens, toTokens, skip, List.drop_append_of_le_length inside, closed]

/-- Going on to the next statement leads to the least later place where one can begin, turn by
    turn, and always further until the first end token is reached, behind as many turns as there
    are tokens before it at the latest. What is parsed there is what the tokens from there on are
    parsed to. -/
theorem statements_are_reached (tokens : List Token) (start : Nat)
    (inside : start < (Token.closed tokens).length) :
    let place := (ofTokens tokens).placeBehind start
    place 0 = start ∧
      (∀ turns, place turns < (Token.closed tokens).length ∧
        nextStatement^[turns] ((ofTokens tokens).skip start) =
          (ofTokens tokens).skip (place turns) ∧
        LeadsTo (Token.closed tokens) (place turns) (place (turns + 1)) ∧
        (nextStatement^[turns] ((ofTokens tokens).skip start)).parse =
          (ofTokens ((Token.closed tokens).drop (place turns))).parse) ∧
      ∃ ending, FirstEnd (Token.closed tokens) start ending ∧ ∀ turns,
        place turns ≤ ending ∧ (place turns < ending → place turns < place (turns + 1)) ∧
          (place turns = ending → place (turns + 1) = ending) ∧
          (ending ≤ start + turns → place turns = ending) := by
  intro place
  have closed := final_ofTokens tokens
  rw [← toTokens_ofTokens] at inside ⊢
  have within : start ≤ (ofTokens tokens).unread.length := by
    simp [toTokens] at inside
    omega
  refine ⟨placeBehind_zero within, fun turns => ?_, ?_⟩
  · obtain ⟨inside', reached, leads⟩ := turn closed within turns
    refine ⟨?_, reached, leads, ?_⟩
    · simp [toTokens, place]
      omega
    · rw [reached, ofTokens_drop closed inside']
  · obtain ⟨ending, -, first⟩ := exists_firstEnd closed within
    refine ⟨ending, first, fun turns => ?_⟩
    obtain ⟨ahead, far⟩ := placeBehind_toward closed within first turns
    obtain ⟨-, -, leads⟩ := turn closed within turns
    obtain ⟨-, further, stays⟩ := leads.toward ahead
    have atMost : place turns ≤ ending := ahead.1.1
    refine ⟨atMost, further, stays, fun enough => ?_⟩
    exact Nat.le_antisymm atMost (Nat.min_eq_left enough ▸ far)

/-- A semicolon right behind another one, a word that begins a statement, and an end token among
    the others. -/
theorem statements_are_reached_stray_end :
    let token (kind : Kind) : Token := ⟨kind, "", none, 1⟩
    let tokens : List Token := [.plus, .semicolon, .semicolon, .star, .keyword .varWord, .endOfInput,
      .number].map token
    0 < (Token.closed tokens).length ∧
      (List.range 6).map ((ofTokens tokens).placeBehind 0) = [0, 2, 3, 4, 5, 5] ∧
      (nextStatement^[3] ((ofTokens tokens).skip 0)).parse =
        (ofTokens ((Token.closed tokens).drop 4)).parse := by
  intro token tokens
  have inside : 0 < (Token.closed tokens).length := by decide
  have places : (List.range 6).map ((ofTokens tokens).placeBehind 0) = [0, 2, 3, 4, 5, 5] := by
    decide +kernel
  have third : (ofTokens tokens).placeBehind 0 3 = 4 := by decide +kernel
  obtain ⟨-, turns, -⟩ := statements_are_reached tokens 0 inside
  have parsed := (turns 3).2.2.2
  rw [third] at parsed
  exact ⟨inside, places, parsed⟩

end TokenStream

end Reckoner
