import Mathlib.Logic.Relation
import Reckoner.Proofs.Grammar.Machine

/-! # What the machine keeps

Whatever a parse comes by, the cursor stands at some token and never goes back, and what is open
is exactly what the stack has still to close, as long as nothing has broken off. So there is
always a token to look at and something to close, and the machine stops only where the outermost
call returns.
-/

namespace Reckoner

open Grammar

namespace Machine

def Frame.opens : Frame → Bool
  | .signed _ | .enclosed => true
  | .first _ | .second .. => false

/-- How many unary operators and parentheses the stack has still to close. -/
def openings (stack : List Frame) : Nat := stack.countP Frame.opens

/-- The state of a procedure that has not broken off, above the frames of its callers. -/
structure State.Fits (tokens : List Token) (stack : List Frame) (state : State) : Prop where
  cursor_lt : state.cursor < tokens.length
  depth_eq : state.depth = openings stack
  depth_le : state.depth ≤ maxHeight

/-- The configurations of a parse. Behind a refusal the depth is what it was when the procedure
    broke off, and the cursor stays at the offending token. -/
inductive Config.Lawful (tokens : List Token) : Config → Prop where
  | call {state : State} {procedure : Procedure} {stack : List Frame} :
      state.Fits tokens stack →
      (procedure = .phrase .primary → ∀ token, tokens[state.cursor]? = some token →
        token.kind ∉ Kind.unaryOperators) →
      Lawful tokens ⟨state, .call procedure, stack⟩
  | join {state : State} {level : Level} {left : Expr} {stack : List Frame} :
      state.Fits tokens stack → Lawful tokens ⟨state, .join level left, stack⟩
  | given {state : State} {expr : Expr} {stack : List Frame} :
      state.Fits tokens stack → Lawful tokens ⟨state, .back (.ok expr), stack⟩
  | refused {state : State} {refusal : Refusal} {stack : List Frame} :
      tokens[state.cursor]? = some refusal.token → state.depth ≤ maxHeight →
      Lawful tokens ⟨state, .back (.error (.refused refusal)), stack⟩

/-- The machine comes from the one configuration to the other. -/
abbrev Reaches (tokens : List Token) : Config → Config → Prop :=
  Relation.ReflTransGen fun config later => config.next? tokens = some later

namespace State.Fits

variable {tokens : List Token} {stack : List Frame} {cursor depth height : Nat}

theorem exists_token {state : State} (fits : state.Fits tokens stack) :
    ∃ token, tokens[state.cursor]? = some token :=
  ⟨_, List.getElem?_eq_getElem fits.cursor_lt⟩

theorem of_height (fits : State.Fits tokens stack ⟨cursor, depth, height⟩) (height' : Nat) :
    State.Fits tokens stack ⟨cursor, depth, height'⟩ :=
  ⟨fits.cursor_lt, fits.depth_eq, fits.depth_le⟩

theorem moved (fits : State.Fits tokens stack ⟨cursor, depth, height⟩) {next : Token}
    (isNext : tokens[cursor + 1]? = some next) :
    State.Fits tokens stack ⟨cursor + 1, depth, height⟩ :=
  ⟨(List.getElem?_eq_some_iff.mp isNext).1, fits.depth_eq, fits.depth_le⟩

theorem plain_iff {state : State} {frame : Frame} (plain : frame.opens = false) :
    state.Fits tokens (frame :: stack) ↔ state.Fits tokens stack := by
  have same : openings (frame :: stack) = openings stack :=
    List.countP_cons_of_neg (by simp [plain])
  constructor
  · exact fun fits => ⟨fits.cursor_lt, same ▸ fits.depth_eq, fits.depth_le⟩
  · exact fun fits => ⟨fits.cursor_lt, same ▸ fits.depth_eq, fits.depth_le⟩

theorem opened (fits : State.Fits tokens stack ⟨cursor, depth, height⟩)
    (room : depth < maxHeight) {frame : Frame} (opens : frame.opens = true) :
    State.Fits tokens (frame :: stack) ⟨cursor, depth + 1, height⟩ := by
  have more : openings (frame :: stack) = openings stack + 1 := List.countP_cons_of_pos opens
  exact ⟨fits.cursor_lt, more ▸ congrArg (· + 1) fits.depth_eq, room⟩

theorem exists_succ {state : State} {frame : Frame} (fits : state.Fits tokens (frame :: stack))
    (opens : frame.opens = true) : ∃ less, state.depth = less + 1 := by
  have more : openings (frame :: stack) = openings stack + 1 := List.countP_cons_of_pos opens
  exact ⟨_, fits.depth_eq.trans more⟩

theorem closed {frame : Frame}
    (fits : State.Fits tokens (frame :: stack) ⟨cursor, depth + 1, height⟩)
    (opens : frame.opens = true) : State.Fits tokens stack ⟨cursor, depth, height⟩ := by
  have more : openings (frame :: stack) = openings stack + 1 := List.countP_cons_of_pos opens
  exact ⟨fits.cursor_lt, Nat.succ.inj (fits.depth_eq.trans more), Nat.le_of_succ_le fits.depth_le⟩

end State.Fits

theorem exists_next {stream : TokenStream} (closed : stream.final.kind = .endOfInput) {cursor : Nat}
    {token : Token} (here : stream.toTokens[cursor]? = some token)
    (notEnd : token.kind ≠ .endOfInput) : ∃ next, stream.toTokens[cursor + 1]? = some next := by
  have below := (List.getElem?_eq_some_iff.mp here).1
  simp only [TokenStream.toTokens, List.length_append, List.length_singleton] at below
  have unread : cursor + 1 ≤ stream.unread.length := by
    by_contra beyond
    obtain rfl : cursor = stream.unread.length := by omega
    obtain rfl : stream.final = token := by simpa [TokenStream.toTokens] using here
    exact notEnd closed
  exact ⟨_, TokenStream.getElem?_toTokens unread⟩

@[simp] theorem operand_ne_primary (level : Level) :
    Procedure.phrase level.operand ≠ .phrase .primary := by
  cases level <;> simp [Level.operand]

namespace Config.Lawful

variable {stream : TokenStream} {config later : Config}

/-- The machine turns until the outermost call returns. -/
theorem exists_turn (closed : stream.final.kind = .endOfInput)
    (lawful : config.Lawful stream.toTokens) :
    (∃ result, config.control = .back result ∧ config.stack = []) ∨
      ∃ later, Turn stream.toTokens config later := by
  cases lawful with
  | @call state procedure stack fits =>
      obtain ⟨cursor, depth, height⟩ := state
      obtain ⟨token, here⟩ := fits.exists_token
      refine .inr ?_
      match procedure with
      | .expression => exact ⟨_, .expression⟩
      | .phrase (.joined level) => exact ⟨_, .joined⟩
      | .phrase .unary =>
          by_cases member : token.kind ∈ Kind.unaryOperators
          · by_cases room : depth < maxHeight
            · exact ⟨_, .sign here member room⟩
            · obtain ⟨next, isNext⟩ := exists_next closed here
                (Token.AwaitsOperand.kind_ne_endOfInput (.inl member))
              exact ⟨_, .signFull here member (Nat.le_of_not_lt room) isNext⟩
          · exact ⟨_, .unsigned here member⟩
      | .phrase .primary =>
          by_cases isOpening : token.kind = .leftParen
          · by_cases room : depth < maxHeight
            · exact ⟨_, .opening here isOpening room⟩
            · obtain ⟨next, isNext⟩ := exists_next closed here
                (Token.AwaitsOperand.kind_ne_endOfInput (.inr (.inr isOpening)))
              exact ⟨_, .openingFull here isOpening (Nat.le_of_not_lt room) isNext⟩
          · by_cases terminal : ∃ value, Terminal token value
            · obtain ⟨value, terminal⟩ := terminal
              exact ⟨_, .literal here terminal⟩
            · exact ⟨_, .missing here isOpening (not_exists.mp terminal)⟩
  | @join state level left stack fits =>
      obtain ⟨cursor, depth, height⟩ := state
      obtain ⟨token, here⟩ := fits.exists_token
      by_cases member : token.kind ∈ level.operators
      · exact .inr ⟨_, .operator here member⟩
      · exact .inr ⟨_, .noOperator here member⟩
  | @given state expr stack fits =>
      obtain ⟨cursor, depth, height⟩ := state
      obtain ⟨token, here⟩ := fits.exists_token
      cases stack with
      | nil => exact .inl ⟨_, rfl, rfl⟩
      | cons frame stack =>
          refine .inr ?_
          cases frame with
          | first level => exact ⟨_, .first⟩
          | second level left operator leftHeight =>
              by_cases low : max leftHeight height + 1 ≤ maxHeight
              · exact ⟨_, .second low⟩
              · exact ⟨_, .secondTall (Nat.lt_of_not_le low) here⟩
          | signed operator =>
              obtain ⟨less, rfl⟩ := fits.exists_succ rfl
              by_cases low : height + 1 ≤ maxHeight
              · exact ⟨_, .signed low⟩
              · exact ⟨_, .signedTall (Nat.lt_of_not_le low) here⟩
          | enclosed =>
              obtain ⟨less, rfl⟩ := fits.exists_succ rfl
              by_cases isClosing : token.kind = .rightParen
              · by_cases low : height + 1 ≤ maxHeight
                · exact ⟨_, .enclosed here isClosing low⟩
                · obtain ⟨next, isNext⟩ := exists_next closed here
                    (Token.EndsOperand.kind_ne_endOfInput (.inr isClosing))
                  exact ⟨_, .enclosedTall here isClosing (Nat.lt_of_not_le low) isNext⟩
              · exact ⟨_, .unclosed here isClosing⟩
  | @refused state refusal stack _ _ =>
      cases stack with
      | nil => exact .inl ⟨_, rfl, rfl⟩
      | cons => exact .inr ⟨_, .unwind⟩

theorem turn (closed : stream.final.kind = .endOfInput) (lawful : config.Lawful stream.toTokens)
    (goesOn : config.next? stream.toTokens = some later) : Turn stream.toTokens config later := by
  obtain ⟨result, isBack, isEmpty⟩ | ⟨later', turn⟩ := lawful.exists_turn closed
  · obtain ⟨state, control, stack⟩ := config
    obtain rfl : control = .back result := isBack
    obtain rfl : stack = [] := isEmpty
    cases result with
    | ok => cases goesOn
    | error => cases goesOn
  · obtain rfl : later' = later := Option.some.inj (turn.next?_eq.symm.trans goesOn)
    exact turn

end Config.Lawful

namespace Turn

variable {tokens : List Token} {config later : Config}

theorem cursor_le (turn : Turn tokens config later) :
    config.state.cursor ≤ later.state.cursor := by
  cases turn <;> simp

/-- A procedure that has not broken off leaves a state that fits its callers, and one that breaks
    off does so at the offending token. -/
theorem lawful {stream : TokenStream} (closed : stream.final.kind = .endOfInput)
    (turn : Turn stream.toTokens config later) (lawful : config.Lawful stream.toTokens) :
    later.Lawful stream.toTokens := by
  cases turn with
  | expression =>
      cases lawful with
      | call fits => exact .call fits nofun
  | joined =>
      cases lawful with
      | call fits =>
          exact .call ((State.Fits.plain_iff rfl).mpr fits)
            fun isPrimary => absurd isPrimary (operand_ne_primary _)
  | sign here member room =>
      cases lawful with
      | call fits =>
          obtain ⟨next, isNext⟩ := exists_next closed here
            (Token.AwaitsOperand.kind_ne_endOfInput (.inl member))
          exact .call ((fits.moved isNext).opened room rfl) nofun
  | signFull _ _ _ isNext =>
      cases lawful with
      | call fits => exact .refused isNext fits.depth_le
  | unsigned here notMember =>
      cases lawful with
      | call fits =>
          refine .call fits fun _ token here' => ?_
          rwa [← Option.some.inj (here.symm.trans here')]
  | opening here isOpening room =>
      cases lawful with
      | call fits =>
          obtain ⟨next, isNext⟩ := exists_next closed here
            (Token.AwaitsOperand.kind_ne_endOfInput (.inr (.inr isOpening)))
          exact .call ((fits.moved isNext).opened room rfl) nofun
  | openingFull _ _ _ isNext =>
      cases lawful with
      | call fits => exact .refused isNext fits.depth_le
  | literal here terminal =>
      cases lawful with
      | call fits =>
          obtain ⟨next, isNext⟩ := exists_next closed here
            (Token.EndsOperand.kind_ne_endOfInput (.inl ⟨_, terminal⟩))
          exact .given ((fits.moved isNext).of_height 1)
  | missing here =>
      cases lawful with
      | call fits => exact .refused here fits.depth_le
  | operator here member =>
      cases lawful with
      | join fits =>
          obtain ⟨next, isNext⟩ := exists_next closed here
            (Token.awaitsOperand_of_level member).kind_ne_endOfInput
          exact .call ((State.Fits.plain_iff rfl).mpr (fits.moved isNext))
            fun isPrimary => absurd isPrimary (operand_ne_primary _)
  | noOperator =>
      cases lawful with
      | join fits => exact .given fits
  | first =>
      cases lawful with
      | given fits => exact .join ((State.Fits.plain_iff rfl).mp fits)
  | second =>
      cases lawful with
      | given fits => exact .join (((State.Fits.plain_iff rfl).mp fits).of_height _)
  | secondTall _ here =>
      cases lawful with
      | given fits => exact .refused here fits.depth_le
  | signed =>
      cases lawful with
      | given fits => exact .given ((fits.closed rfl).of_height _)
  | signedTall _ here =>
      cases lawful with
      | given fits => exact .refused here (fits.closed rfl).depth_le
  | enclosed here isClosing =>
      cases lawful with
      | given fits =>
          obtain ⟨next, isNext⟩ := exists_next closed here
            (Token.EndsOperand.kind_ne_endOfInput (.inr isClosing))
          exact .given (((fits.closed rfl).moved isNext).of_height _)
  | enclosedTall _ _ _ isNext =>
      cases lawful with
      | given fits => exact .refused isNext (fits.closed rfl).depth_le
  | unclosed here =>
      cases lawful with
      | given fits => exact .refused here (fits.closed rfl).depth_le
  | unwind =>
      cases lawful with
      | refused here depth_le => exact .refused here depth_le

end Turn

section

variable {stream : TokenStream} {config later : Config}

theorem lawful_initial {tokens : List Token} {start : Nat} (inside : start < tokens.length) :
    (Config.initial start).Lawful tokens :=
  .call ⟨inside, rfl, Nat.zero_le _⟩ nofun

theorem lawful_of_reaches (closed : stream.final.kind = .endOfInput)
    (lawful : config.Lawful stream.toTokens) (reaches : Reaches stream.toTokens config later) :
    later.Lawful stream.toTokens := by
  induction reaches with
  | refl => exact lawful
  | tail _ goesOn ih => exact (ih.turn closed goesOn).lawful closed ih

theorem cursor_le_of_reaches (closed : stream.final.kind = .endOfInput)
    (lawful : config.Lawful stream.toTokens) (reaches : Reaches stream.toTokens config later) :
    config.state.cursor ≤ later.state.cursor := by
  induction reaches with
  | refl => exact Nat.le_refl _
  | tail before goesOn ih =>
      have turn := (lawful_of_reaches closed lawful before).turn closed goesOn
      exact Nat.le_trans ih turn.cursor_le

end

end Machine

end Reckoner
