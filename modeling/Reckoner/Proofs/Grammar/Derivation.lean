import Reckoner.Grammar.Parse

/-! # Derivations

The grammar of expressions, told without the reader. Each of its phrases derives trees
from exactly the tokens that they are made of:

    equality   → comparison ( ( "!=" | "==" ) comparison )*
    comparison → term ( ( ">" | ">=" | "<" | "<=" ) term )*
    term       → factor ( ( "-" | "+" ) factor )*
    factor     → unary ( ( "/" | "*" ) unary )*
    unary      → ( "!" | "-" ) unary | primary
    primary    → NUMBER | STRING | "true" | "false" | "nil" | "(" equality ")"

A repetition groups to the left, so it is told with the longer part in front.
-/

namespace Reckoner

namespace Kind

def unaryOperators : List Kind := [.bang, .minus]

def binaryOperators : List Kind :=
  [.bangEqual, .equalEqual, .greater, .greaterEqual, .less, .lessEqual, .minus, .plus,
    .slash, .star]

end Kind

/-- The operators of a level. -/
def Level.operators : Level → List Kind
  | .equality => [.bangEqual, .equalEqual]
  | .comparison => [.greater, .greaterEqual, .less, .lessEqual]
  | .term => [.minus, .plus]
  | .factor => [.slash, .star]

/-- The left sides of the rules. -/
inductive Phrase where
  /-- Operands joined by operators of a level. -/
  | joined (level : Level)
  | unary
  | primary
  deriving Repr, DecidableEq

/-- What the operators of a level join. -/
def Level.operand : Level → Phrase
  | .equality => .joined .comparison
  | .comparison => .joined .term
  | .term => .joined .factor
  | .factor => .unary

/-- A token that is an operand by itself, with its value. Numbers and strings are such
    tokens only if they carry a literal, which may be any. -/
inductive Terminal : Token → Value → Prop where
  | trueWord {token : Token} : token.kind = .keyword .trueWord → Terminal token (.bool true)
  | falseWord {token : Token} : token.kind = .keyword .falseWord → Terminal token (.bool false)
  | nilWord {token : Token} : token.kind = .keyword .nilWord → Terminal token .nil
  | number {token : Token} {value : Value} :
      token.kind = .number → token.literal = some value → Terminal token value
  | string {token : Token} {value : Value} :
      token.kind = .string → token.literal = some value → Terminal token value

/-- The tokens are the phrase, and this is its tree. An operator of the tree is the very
    token at its place. -/
inductive Derives : Phrase → List Token → Expr → Prop where
  | single {level : Level} {tokens : List Token} {expr : Expr} :
      Derives level.operand tokens expr → Derives (.joined level) tokens expr
  | joined {level : Level} {before behind : List Token} {operator : Token} {left right : Expr} :
      Derives (.joined level) before left → operator.kind ∈ level.operators →
      Derives level.operand behind right →
      Derives (.joined level) (before ++ operator :: behind) (.binary left operator right)
  | unary {tokens : List Token} {operator : Token} {operand : Expr} :
      operator.kind ∈ Kind.unaryOperators → Derives .unary tokens operand →
      Derives .unary (operator :: tokens) (.unary operator operand)
  | primary {tokens : List Token} {expr : Expr} :
      Derives .primary tokens expr → Derives .unary tokens expr
  | group {tokens : List Token} {opening closing : Token} {inner : Expr} :
      opening.kind = .leftParen → Derives (.joined .equality) tokens inner →
      closing.kind = .rightParen →
      Derives .primary (opening :: (tokens ++ [closing])) (.group inner)
  | literal {token : Token} {value : Value} :
      Terminal token value → Derives .primary [token] (.literal value)

namespace Kind

@[simp] theorem level?_eq_some_iff (kind : Kind) (level : Level) :
    kind.level? = some level ↔ kind ∈ level.operators := by
  cases kind <;> cases level <;> simp [level?, Level.operators]

@[simp] theorem isUnary_iff (kind : Kind) : kind.isUnary = true ↔ kind ∈ unaryOperators := by
  cases kind <;> simp [isUnary, unaryOperators]

theorem mem_binaryOperators_iff (kind : Kind) :
    kind ∈ binaryOperators ↔ ∃ level : Level, kind ∈ level.operators := by
  constructor
  · intro member
    have someLevel : kind.level?.isSome := by
      cases kind <;> simp_all [binaryOperators, level?]
    obtain ⟨level, found⟩ := Option.isSome_iff_exists.mp someLevel
    exact ⟨level, (level?_eq_some_iff kind level).mp found⟩
  · rintro ⟨level, member⟩
    cases level <;> simp_all [binaryOperators, Level.operators] <;> grind

end Kind

@[simp] theorem Token.operandValue?_eq_some_iff (token : Token) (value : Value) :
    token.operandValue? = some value ↔ Terminal token value := by
  constructor
  · intro found
    unfold operandValue? at found
    split at found
    case h_1 word => cases found; exact .falseWord word
    case h_2 word => cases found; exact .trueWord word
    case h_3 word => cases found; exact .nilWord word
    case h_4 kind => exact .number kind found
    case h_5 kind => exact .string kind found
    case h_6 => cases found
  · intro terminal
    cases terminal with
    | trueWord kind | falseWord kind | nilWord kind => simp [operandValue?, kind]
    | number kind literal | string kind literal => simp [operandValue?, kind, literal]

theorem Terminal.opens_nothing {token : Token} {value : Value} (terminal : Terminal token value) :
    token.kind.isUnary = false ∧ token.kind ≠ .leftParen := by
  cases terminal with
  | trueWord kind | falseWord kind | nilWord kind | number kind _ | string kind _ =>
      simp [kind, Kind.isUnary]

theorem Expr.height_pos (expr : Expr) : 0 < expr.height := by
  cases expr <;> simp [Expr.height]

namespace Phrase

/-- The operators that go on a phrase of this kind: its own and those that bind tighter. -/
def continuations : Phrase → List Kind
  | .joined .equality => Kind.binaryOperators
  | .joined .comparison =>
      Level.comparison.operators ++ Level.term.operators ++ Level.factor.operators
  | .joined .term => Level.term.operators ++ Level.factor.operators
  | .joined .factor => Level.factor.operators
  | .unary | .primary => []

/-- The tokens do not go on a phrase of this kind that stands before them. -/
def EndsBefore (phrase : Phrase) (rest : List Token) : Prop :=
  ∀ token ∈ rest.head?, token.kind ∉ phrase.continuations

theorem endsBefore_joined_iff (level : Level) (rest : List Token) :
    (Phrase.joined level).EndsBefore rest ↔
      (∀ token ∈ rest.head?, token.kind ∉ level.operators) ∧ level.operand.EndsBefore rest := by
  have splitOperators (kind : Kind) : kind ∈ (Phrase.joined level).continuations ↔
      kind ∈ level.operators ∨ kind ∈ level.operand.continuations := by
    cases level <;>
      simp [continuations, Level.operators, Level.operand, Kind.binaryOperators, or_assoc]
  constructor
  · intro ends
    exact ⟨fun token isHead own => ends token isHead ((splitOperators _).mpr (.inl own)),
      fun token isHead tighter => ends token isHead ((splitOperators _).mpr (.inr tighter))⟩
  · rintro ⟨noOwn, noTighter⟩ token isHead member
    exact ((splitOperators _).mp member).elim (noOwn token isHead) (noTighter token isHead)

/-- An operator of a level ends the operand before it, since it binds less tight. -/
theorem endsBefore_operator {level : Level} {operator : Token}
    (member : operator.kind ∈ level.operators) (rest : List Token) :
    level.operand.EndsBefore (operator :: rest) := by
  intro token isHead
  obtain rfl : operator = token := by simpa using isHead
  cases level <;>
    simp_all [Level.operators, Level.operand, continuations] <;> grind

end Phrase

end Reckoner
