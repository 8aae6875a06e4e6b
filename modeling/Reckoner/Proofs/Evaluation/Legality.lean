import Mathlib.Logic.Function.Iterate
import Reckoner.Evaluation
import Reckoner.Proofs.Grammar.Acceptance

/-! # Legal trees

The parser only builds trees whose operators are operators of their arity. Evaluating such a
tree gives a value or a type fault at one of its own operators, and nothing else: the operator
tables of the grammar and of the evaluation agree. This holds whatever the tokens are, since
the tree takes from them only what their kinds allow.
-/

namespace Reckoner

namespace Expr

/-- The operators of the tree, from left to right. -/
def operators : Expr → List Token
  | .literal _ => []
  | .group inner => inner.operators
  | .unary operator operand => operator :: operand.operators
  | .binary left operator right => left.operators ++ operator :: right.operators

/-- Every operator in the tree is an operator of its arity. -/
def Legal : Expr → Prop
  | .literal _ => True
  | .group inner => inner.Legal
  | .unary operator operand => operator.kind ∈ Kind.unaryOperators ∧ operand.Legal
  | .binary left operator right =>
      left.Legal ∧ operator.kind ∈ Kind.binaryOperators ∧ right.Legal

end Expr

theorem Derives.legal {phrase : Phrase} {tokens : List Token} {expr : Expr}
    (derivation : Derives phrase tokens expr) : expr.Legal := by
  induction derivation with
  | single _ ih | primary _ ih => exact ih
  | joined _ member _ ihBefore ihBehind =>
      exact ⟨ihBefore, (Kind.mem_binaryOperators_iff _).mpr ⟨_, member⟩, ihBehind⟩
  | unary member _ ih => exact ⟨member, ih⟩
  | group _ _ _ ih => exact ih
  | literal => trivial

/-- A value, or a type fault at one of the operators. -/
inductive Settled (operators : List Token) : Except EvalError Value → Prop where
  | value (value : Value) : Settled operators (.ok value)
  | fault {operator : Token} (fault : TypeFault) :
      operator ∈ operators → Settled operators (.error (.illTyped fault operator))

namespace Settled

theorem mono {few many : List Token} (subset : few ⊆ many) {result : Except EvalError Value}
    (settled : Settled few result) : Settled many result := by
  cases settled with
  | value value => exact .value value
  | fault fault member => exact .fault fault (subset member)

theorem bind {operators : List Token} {result : Except EvalError Value}
    {next : Value → Except EvalError Value} (settled : Settled operators result)
    (settles : ∀ value, Settled operators (next value)) : Settled operators (result >>= next) := by
  cases settled with
  | value value => exact settles value
  | fault fault member => exact .fault fault member

end Settled

theorem onNumbers_settled (operator : Token) (operation : Number → Number → Value)
    (left right : Value) : Settled [operator] (onNumbers operator operation left right) := by
  unfold onNumbers
  split
  · exact .value _
  · exact .fault _ (List.mem_singleton_self _)

theorem addOrJoin_settled (operator : Token) (left right : Value) :
    Settled [operator] (addOrJoin operator left right) := by
  unfold addOrJoin
  split
  · exact .value _
  · exact .value _
  · exact .fault _ (List.mem_singleton_self _)

theorem applyUnary_settled {operator : Token} (member : operator.kind ∈ Kind.unaryOperators)
    (operand : Value) : Settled [operator] (applyUnary operator operand) := by
  unfold applyUnary
  split
  · split
    · exact .value _
    · exact .fault _ (List.mem_singleton_self _)
  · exact .value _
  · rename_i notMinus notBang
    simp only [Kind.unaryOperators, List.mem_cons, List.not_mem_nil, or_false] at member
    exact (member.elim notBang notMinus).elim

theorem applyBinary_settled {operator : Token} (member : operator.kind ∈ Kind.binaryOperators)
    (left right : Value) : Settled [operator] (applyBinary operator left right) := by
  unfold applyBinary
  split
  case h_1 | h_2 => exact .value _
  case h_3 => exact addOrJoin_settled operator left right
  case h_11 => simp_all [Kind.binaryOperators]
  all_goals exact onNumbers_settled operator _ left right

theorem Expr.Legal.evaluate_settled {expr : Expr} (legal : expr.Legal) :
    Settled expr.operators expr.evaluate := by
  -- One operator at a time: the node settles what its operands and the operator itself settle.
  induction expr with
  | literal value => exact .value value
  | group inner ih => exact ih legal
  | unary operator operand ih =>
      obtain ⟨member, legalOperand⟩ := legal
      apply Settled.bind ((ih legalOperand).mono (List.subset_cons_self _ _))
      intro value
      exact (applyUnary_settled member value).mono (by simp)
  | binary left operator right ihLeft ihRight =>
      obtain ⟨legalLeft, member, legalRight⟩ := legal
      have rightPart : right.operators ⊆ left.operators ++ operator :: right.operators :=
        fun token inRight => List.mem_append_right _ (List.mem_cons_of_mem _ inRight)
      apply Settled.bind ((ihLeft legalLeft).mono (List.subset_append_left _ _))
      intro a
      apply Settled.bind ((ihRight legalRight).mono rightPart)
      intro b
      exact (applyBinary_settled member a b).mono (by simp)

namespace TokenStream

theorem legal_of_parse {stream : TokenStream} {expr : Expr} (parses : stream.parse = .ok expr) :
    expr.Legal ∧ expr.height ≤ 128 := by
  obtain ⟨height, rest, read⟩ := (parse_eq_ok_iff _ _).mp parses
  obtain ⟨⟨⟨used, _, derivation⟩, height_eq, height_le⟩, _⟩ :=
    Grammar.readWithin_sound (by decide) _ _ read
  exact ⟨derivation.legal, height_eq ▸ height_le⟩

/-- Whatever tokens are parsed, and from whichever statement on, the tree is legal and low,
    and evaluating it settles at a value or at one of its operators. -/
theorem evaluate_settled_of_parse (tokens : List Token) (skipped : Nat) (expr : Expr)
    (parses : (nextStatement^[skipped] (ofTokens tokens)).parse = .ok expr) :
    expr.Legal ∧ expr.height ≤ 128 ∧ Settled expr.operators expr.evaluate := by
  obtain ⟨legal, low⟩ := legal_of_parse parses
  exact ⟨legal, low, legal.evaluate_settled⟩

/-- A stray end token and a string where a number is needed, behind a statement that is
    skipped. -/
theorem evaluate_settled_of_parse_skipped :
    let operator : Token := ⟨.minus, "?", none, 7⟩
    let tokens : List Token := [⟨.keyword .varWord, "var", none, 7⟩, ⟨.semicolon, ";", none, 7⟩,
      operator, ⟨.number, "x", some (.text "y"), 7⟩, .endOfInput 8, ⟨.comma, ",", none, 9⟩]
    let expr : Expr := .unary operator (.literal (.text "y"))
    (nextStatement^[1] (ofTokens tokens)).parse = .ok expr ∧
      expr.Legal ∧ expr.height ≤ 128 ∧ Settled expr.operators expr.evaluate := by
  intro operator tokens expr
  have parses : (nextStatement (ofTokens tokens)).parse = .ok expr := by
    cbv
  exact ⟨parses, evaluate_settled_of_parse tokens 1 expr parses⟩

end TokenStream

end Reckoner
