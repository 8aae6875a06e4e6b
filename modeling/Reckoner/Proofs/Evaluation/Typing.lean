import Reckoner.Proofs.Evaluation.Legality

/-! # Types decide

Whether a tree has a value depends on the types of its leaves, not on the leaves. The types
are worked out from the leaves up. A tree that can be typed throughout has a value of the type
of its root. In any other tree there is a first node, in the order of evaluation, whose
operator does not take operands of the types that it is given, and evaluation ends there.
-/

namespace Reckoner

/-- The types of values. -/
inductive ValueType where
  | number
  | text
  | bool
  | nil
  deriving Repr, DecidableEq

def Value.type : Value → ValueType
  | .number _ => .number
  | .text _ => .text
  | .bool _ => .bool
  | .nil => .nil

/-- The type that an operation on numbers gives, if both operands are numbers. -/
def ValueType.fromNumbers? (result left right : ValueType) : Option ValueType :=
  if left = .number ∧ right = .number then some result else none

namespace Kind

/-- The type that a unary operator gives, if it takes an operand of the given type. -/
def unaryType? : Kind → ValueType → Option ValueType
  | .minus, .number => some .number
  | .bang, _ => some .bool
  | _, _ => none

/-- The type that a binary operator gives, if it takes operands of the given types. -/
def binaryType? (kind : Kind) (left right : ValueType) : Option ValueType :=
  match kind with
  | .equalEqual | .bangEqual => some .bool
  | .plus => if left = right ∧ (left = .number ∨ left = .text) then some left else none
  | .minus | .star | .slash => ValueType.number.fromNumbers? left right
  | .less | .lessEqual | .greater | .greaterEqual => ValueType.bool.fromNumbers? left right
  | _ => none

/-- What a binary operator says of operands that it does not take. -/
def binaryFault : Kind → TypeFault
  | .plus => .needsNumbersOrStrings
  | _ => .needsNumbers

end Kind

namespace Expr

/-- The type of the tree, worked out from its leaves up. -/
def type? : Expr → Option ValueType
  | .literal value => some value.type
  | .group inner => inner.type?
  | .unary operator operand => operand.type?.bind operator.kind.unaryType?
  | .binary left operator right =>
      left.type?.bind fun a => right.type?.bind fun b => operator.kind.binaryType? a b

/-- The parts right below the root. -/
def operands : Expr → List Expr
  | .literal _ => []
  | .group inner => [inner]
  | .unary _ operand => [operand]
  | .binary left _ right => [left, right]

/-- The nodes of the tree in the order of evaluation: those of the operands from left to
    right, and then the root. -/
def nodes : Expr → List Expr
  | .literal value => [.literal value]
  | .group inner => inner.nodes ++ [.group inner]
  | .unary operator operand => operand.nodes ++ [.unary operator operand]
  | .binary left operator right => left.nodes ++ (right.nodes ++ [.binary left operator right])

/-- The node cannot be typed although its operands can: it is its own operator that does not
    take them. -/
def misapplies (node : Expr) : Bool :=
  node.type?.isNone && node.operands.all fun operand => operand.type?.isSome

/-- What the operator of a node says of operands that it does not take. -/
def complaint? : Expr → Option EvalError
  | .literal _ | .group _ => none
  | .unary operator _ => some (.illTyped .needsNumber operator)
  | .binary _ operator _ => some (.illTyped operator.kind.binaryFault operator)

/-- The complaint of the first node that misapplies its operator. -/
def blame? (expr : Expr) : Option EvalError := (expr.nodes.find? misapplies).bind complaint?

/-- The same tree but for its leaves, and these of the same types. -/
inductive Alike : Expr → Expr → Prop where
  | literal {a b : Value} : a.type = b.type → Alike (.literal a) (.literal b)
  | group {a b : Expr} : Alike a b → Alike (.group a) (.group b)
  | unary {a b : Expr} (operator : Token) :
      Alike a b → Alike (.unary operator a) (.unary operator b)
  | binary {a b c d : Expr} (operator : Token) :
      Alike a b → Alike c d → Alike (.binary a operator c) (.binary b operator d)

theorem type?_of_mem_nodes {expr node : Expr} (typed : expr.type?.isSome)
    (member : node ∈ expr.nodes) : node.type?.isSome := by
  induction expr with
  | literal value =>
      obtain rfl := List.mem_singleton.mp member
      exact typed
  | group inner ih =>
      obtain below | isRoot := List.mem_append.mp member
      · exact ih typed below
      · obtain rfl := List.mem_singleton.mp isRoot
        exact typed
  | unary operator operand ih =>
      obtain below | isRoot := List.mem_append.mp member
      · exact ih (Option.isSome_of_isSome_bind typed) below
      · obtain rfl := List.mem_singleton.mp isRoot
        exact typed
  | binary left operator right ihLeft ihRight =>
      obtain ⟨type, isType⟩ := Option.isSome_iff_exists.mp typed
      obtain ⟨a, leftType, applied⟩ := Option.bind_eq_some_iff.mp isType
      obtain ⟨b, rightType, _⟩ := Option.bind_eq_some_iff.mp applied
      obtain inLeft | behind := List.mem_append.mp member
      · exact ihLeft (Option.isSome_of_eq_some leftType) inLeft
      · obtain inRight | isRoot := List.mem_append.mp behind
        · exact ihRight (Option.isSome_of_eq_some rightType) inRight
        · obtain rfl := List.mem_singleton.mp isRoot
          exact typed

@[simp] theorem mem_nodes_self (expr : Expr) : expr ∈ expr.nodes := by
  cases expr <;> simp [nodes]

theorem find?_misapplies_of_typed {expr : Expr} (typed : expr.type?.isSome) :
    expr.nodes.find? misapplies = none := by
  rw [List.find?_eq_none]
  intro node member
  have nodeTyped := type?_of_mem_nodes typed member
  simp [misapplies, Option.isNone_eq_false_iff.mpr nodeTyped]

end Expr

/-- A value of the type, or without a type the error. -/
def Obeys (type? : Option ValueType) (error? : Option EvalError) : Except EvalError Value → Prop
  | .ok value => type? = some value.type
  | .error error => type? = none ∧ error? = some error

theorem Obeys.map_type_eq {type? : Option ValueType} {error? : Option EvalError}
    {one other : Except EvalError Value} (obeys : Obeys type? error? one)
    (obeys' : Obeys type? error? other) : one.map Value.type = other.map Value.type := by
  cases one with
  | ok value =>
      cases other with
      | ok value' => exact congrArg Except.ok (Option.some.inj (obeys.symm.trans obeys'))
      | error error => cases obeys.symm.trans obeys'.1
  | error error =>
      cases other with
      | ok value => cases obeys'.symm.trans obeys.1
      | error error' =>
          exact congrArg Except.error (Option.some.inj (obeys.2.symm.trans obeys'.2))

theorem applyUnary_obeys {operator : Token} (member : operator.kind ∈ Kind.unaryOperators)
    (operand : Value) :
    Obeys (operator.kind.unaryType? operand.type) (some (.illTyped .needsNumber operator))
      (applyUnary operator operand) := by
  simp only [Kind.unaryOperators, List.mem_cons, List.not_mem_nil, or_false] at member
  obtain isBang | isMinus := member
  · simp only [applyUnary, isBang]
    rfl
  · simp only [applyUnary, isMinus]
    cases operand with
    | number n => rfl
    | text | bool | nil => exact ⟨rfl, rfl⟩

theorem onNumbers_obeys (operator : Token) {operation : Number → Number → Value}
    (result : ValueType) (gives : ∀ a b, (operation a b).type = result) (left right : Value) :
    Obeys (result.fromNumbers? left.type right.type) (some (.illTyped .needsNumbers operator))
      (onNumbers operator operation left right) := by
  unfold onNumbers
  split
  · rename_i a b
    exact congrArg some (gives a b).symm
  · refine ⟨?_, rfl⟩
    cases left <;> cases right <;> simp_all [Value.type, ValueType.fromNumbers?]

theorem addOrJoin_obeys (operator : Token) (left right : Value) :
    Obeys (Kind.plus.binaryType? left.type right.type)
      (some (.illTyped .needsNumbersOrStrings operator)) (addOrJoin operator left right) := by
  unfold addOrJoin
  split
  · rfl
  · rfl
  · refine ⟨?_, rfl⟩
    cases left <;> cases right <;> simp_all [Value.type, Kind.binaryType?]

theorem applyBinary_obeys {operator : Token} (member : operator.kind ∈ Kind.binaryOperators)
    (left right : Value) :
    Obeys (operator.kind.binaryType? left.type right.type)
      (some (.illTyped operator.kind.binaryFault operator)) (applyBinary operator left right) := by
  unfold applyBinary
  split
  case h_1 isKind | h_2 isKind =>
      rw [isKind]
      rfl
  case h_3 isKind =>
      rw [isKind]
      exact addOrJoin_obeys operator left right
  case h_4 isKind | h_5 isKind | h_6 isKind =>
      rw [isKind]
      refine onNumbers_obeys operator .number ?_ left right
      exact fun _ _ => rfl
  case h_7 isKind | h_8 isKind | h_9 isKind | h_10 isKind =>
      rw [isKind]
      refine onNumbers_obeys operator .bool ?_ left right
      exact fun _ _ => rfl
  case h_11 => simp_all [Kind.binaryOperators]

namespace Expr

theorem blame?_of_part {expr part : Expr} (before : List Expr) {behind : List Expr}
    {error : EvalError} (parts : expr.nodes = before ++ (part.nodes ++ behind))
    (typed : before.find? misapplies = none) (blamed : part.blame? = some error) :
    expr.blame? = some error := by
  obtain ⟨node, first, complains⟩ := Option.bind_eq_some_iff.mp blamed
  rw [blame?, parts, List.find?_append, typed, List.find?_append, first]
  exact complains

theorem obeys_of_root {expr : Expr} {below : List Expr} {result : Except EvalError Value}
    (parts : expr.nodes = below ++ [expr]) (typed : below.find? misapplies = none)
    (operandsTyped : ∀ operand ∈ expr.operands, operand.type?.isSome)
    (obeys : Obeys expr.type? expr.complaint? result) : Obeys expr.type? expr.blame? result := by
  cases result with
  | ok value => exact obeys
  | error error =>
      obtain ⟨untyped, complains⟩ := obeys
      have misapplied : expr.misapplies = true := by
        simpa [misapplies, untyped] using operandsTyped
      refine ⟨untyped, ?_⟩
      rw [blame?, parts, List.find?_append, typed, Option.none_or, List.find?_singleton,
        misapplied]
      exact complains

theorem Legal.evaluate_obeys {expr : Expr} (legal : expr.Legal) :
    Obeys expr.type? expr.blame? expr.evaluate := by
  -- Node by node: an operand that has no value is blamed first, and only operands that all have one
  -- leave it to the operator above them.
  induction expr with
  | literal value => rfl
  | group inner ih =>
      have below := ih legal
      rw [evaluate]
      cases result : inner.evaluate with
      | error error =>
          rw [result] at below
          exact ⟨below.1, blame?_of_part [] rfl rfl below.2⟩
      | ok value =>
          rw [result] at below
          exact below
  | unary operator operand ih =>
      obtain ⟨member, legalOperand⟩ := legal
      have below := ih legalOperand
      rw [evaluate]
      cases result : operand.evaluate with
      | error error =>
          rw [result] at below
          obtain ⟨untyped, blamed⟩ := below
          exact ⟨by rw [type?, untyped]; rfl, blame?_of_part [] rfl rfl blamed⟩
      | ok value =>
          rw [result] at below
          have typed : operand.type?.isSome := Option.isSome_of_eq_some below
          have isType : (unary operator operand).type? = operator.kind.unaryType? value.type := by
            rw [type?, below, Option.bind_some]
          have applied := applyUnary_obeys member value
          rw [← isType] at applied
          exact obeys_of_root rfl (find?_misapplies_of_typed typed) (by simpa [operands]) applied
  | binary left operator right ihLeft ihRight =>
      obtain ⟨legalLeft, member, legalRight⟩ := legal
      have belowLeft := ihLeft legalLeft
      have belowRight := ihRight legalRight
      rw [evaluate]
      cases resultLeft : left.evaluate with
      | error error =>
          rw [resultLeft] at belowLeft
          obtain ⟨untyped, blamed⟩ := belowLeft
          exact ⟨by rw [type?, untyped]; rfl, blame?_of_part [] rfl rfl blamed⟩
      | ok a =>
          rw [resultLeft] at belowLeft
          have typedLeft : left.type?.isSome := Option.isSome_of_eq_some belowLeft
          cases resultRight : right.evaluate with
          | error error =>
              rw [resultRight] at belowRight
              obtain ⟨untyped, blamed⟩ := belowRight
              refine ⟨by rw [type?, belowLeft, untyped]; rfl, ?_⟩
              exact blame?_of_part left.nodes rfl (find?_misapplies_of_typed typedLeft) blamed
          | ok b =>
              rw [resultRight] at belowRight
              have typedRight : right.type?.isSome := Option.isSome_of_eq_some belowRight
              have isType : (binary left operator right).type? =
                  operator.kind.binaryType? a.type b.type := by
                rw [type?, belowLeft, belowRight, Option.bind_some, Option.bind_some]
              have below : (left.nodes ++ right.nodes).find? misapplies = none := by
                rw [List.find?_append, find?_misapplies_of_typed typedLeft,
                  find?_misapplies_of_typed typedRight, Option.none_or]
              have applied := applyBinary_obeys member a b
              rw [← isType] at applied
              refine obeys_of_root ?_ below (by simp [operands, typedLeft, typedRight]) applied
              rw [nodes, List.append_assoc]

theorem map_type_bind_congr {one other : Except EvalError Value}
    {next next' : Value → Except EvalError Value}
    (same : one.map Value.type = other.map Value.type)
    (step : ∀ a b : Value, a.type = b.type →
      (next a).map Value.type = (next' b).map Value.type) :
    (one >>= next).map Value.type = (other >>= next').map Value.type := by
  cases one with
  | ok a =>
      cases other with
      | ok b => exact step a b (Except.ok.inj same)
      | error => cases same
  | error =>
      cases other with
      | ok => cases same
      | error => exact congrArg Except.error (Except.error.inj same)

theorem Alike.map_evaluate_eq {expr other : Expr} (alike : expr.Alike other)
    (legal : expr.Legal) : expr.evaluate.map Value.type = other.evaluate.map Value.type := by
  induction alike with
  | literal same => exact congrArg Except.ok same
  | group _ ih => exact ih legal
  | unary operator _ ih =>
      obtain ⟨member, legalOperand⟩ := legal
      refine map_type_bind_congr (ih legalOperand) fun a b same => ?_
      exact (applyUnary_obeys member a).map_type_eq (same ▸ applyUnary_obeys member b)
  | binary operator _ _ ihLeft ihRight =>
      obtain ⟨legalLeft, member, legalRight⟩ := legal
      refine map_type_bind_congr (ihLeft legalLeft) fun a b same => ?_
      refine map_type_bind_congr (ihRight legalRight) fun c d same' => ?_
      exact (applyBinary_obeys member a c).map_type_eq
        (same ▸ same' ▸ applyBinary_obeys member b d)

/-- A tree that can be typed throughout has a value of the type of its root. In any other tree
    the first node that cannot be typed although its operands can is where evaluation ends,
    with that node's complaint. So leaves of other values but the same types give a value of
    the same type or the same error. -/
theorem evaluate_decided_by_types (expr : Expr) (legal : expr.Legal) :
    ((∀ node ∈ expr.nodes, node.type?.isSome) →
        ∃ value, expr.evaluate = .ok value ∧ expr.type? = some value.type) ∧
      ((∃ node ∈ expr.nodes, node.type? = none) →
        ∃ node error, expr.nodes.find? misapplies = some node ∧
          node.complaint? = some error ∧ expr.evaluate = .error error) ∧
      ∀ other, expr.Alike other →
        expr.evaluate.map Value.type = other.evaluate.map Value.type := by
  have obeys := legal.evaluate_obeys
  refine ⟨?_, ?_, fun other alike => alike.map_evaluate_eq legal⟩
  · intro typed
    have rootTyped := typed expr expr.mem_nodes_self
    cases result : expr.evaluate with
    | ok value =>
        rw [result] at obeys
        exact ⟨value, rfl, obeys⟩
    | error error =>
        rw [result] at obeys
        simp [obeys.1] at rootTyped
  · rintro ⟨node, member, untyped⟩
    cases result : expr.evaluate with
    | ok value =>
        rw [result] at obeys
        have nodeTyped := type?_of_mem_nodes (Option.isSome_of_eq_some obeys) member
        simp [untyped] at nodeTyped
    | error error =>
        rw [result] at obeys
        obtain ⟨first, isFirst, complains⟩ := Option.bind_eq_some_iff.mp obeys.2
        exact ⟨first, error, isFirst, complains, rfl⟩

/-- Two operators are misapplied, and the one that is reached first is told, whatever the
    number beside the other one. -/
theorem evaluate_decided_by_types_twice_misapplied :
    let negation : Token := ⟨.minus, "-", none, 2⟩
    let tree (n : Number) : Expr :=
      .binary (.group (.unary negation (.literal .nil))) ⟨.plus, "+", none, 1⟩
        (.binary (.literal (.number n)) ⟨.minus, "-", none, 1⟩ (.literal (.text "a")))
    (tree .nan).Legal ∧ (tree .nan).evaluate = .error (.illTyped .needsNumber negation) ∧
      (tree (.infinite .positive)).evaluate.map Value.type =
        .error (.illTyped .needsNumber negation) := by
  intro negation tree
  have legal : (tree .nan).Legal := by
    simp [tree, negation, Legal, Kind.unaryOperators, Kind.binaryOperators]
  obtain ⟨_, faulty, alike⟩ := evaluate_decided_by_types (tree .nan) legal
  obtain ⟨node, error, isFirst, complains, ends⟩ :=
    faulty ⟨tree .nan, mem_nodes_self _, by decide⟩
  obtain rfl : Expr.unary negation (.literal .nil) = node := Option.some.inj isFirst
  obtain rfl := Option.some.inj complains
  refine ⟨legal, ends, ?_⟩
  have same : (tree .nan).Alike (tree (.infinite .positive)) :=
    .binary _ (.group (.unary _ (.literal rfl))) (.binary _ (.literal rfl) (.literal rfl))
  rw [← alike _ same, ends]
  rfl

end Expr

end Reckoner
