import Reckoner.Proofs.Grammar.Derivation

/-! # Reading is deriving

The reader of a phrase succeeds exactly on the tokens that the phrase derives a low enough
tree from, as far as they do not go on. Two limits are at work: the height of every node,
and the room for open unary operators and parentheses. Each of those makes the tree one
taller, so a tree that keeps the first limit never meets the second.
-/

namespace Reckoner

open Grammar

@[simp] theorem Parsed.within_eq_ok_iff (limit : Nat) (parsed result : Parsed) :
    parsed.within limit = .ok result ↔ parsed.height ≤ limit ∧ parsed = result := by
  unfold Parsed.within
  split
  · simp_all
  · rename_i tall
    exact ⟨nofun, fun low => absurd low.1 tall⟩

namespace Phrase

/-- The reader of a phrase. A primary expression has no reader of its own. -/
def read (limit room : Nat) : Phrase → List Token → Reading
  | .joined .equality => expression limit (operand limit room)
  | .joined .comparison => chain limit .comparison <| chain limit .term <| chain limit .factor <|
      operand limit room
  | .joined .term => chain limit .term <| chain limit .factor <| operand limit room
  | .joined .factor => chain limit .factor <| operand limit room
  | .unary | .primary => operand limit room

@[simp] theorem read_joined (limit room : Nat) (level : Level) :
    (Phrase.joined level).read limit room = chain limit level (level.operand.read limit room) := by
  cases level <;> rfl

/-- The tokens begin with a phrase, and this is what it is read as. -/
structure ReadFrom (limit : Nat) (phrase : Phrase) (tokens : List Token) (parsed : Parsed) :
    Prop where
  derived : ∃ used, tokens = used ++ parsed.rest ∧ Derives phrase used parsed.expr
  height_eq : parsed.height = parsed.expr.height
  height_le : parsed.height ≤ limit

/-- Whatever the reader accepts is a phrase up to where it ends. -/
def Sound (limit : Nat) (phrase : Phrase) (reader : List Token → Reading) : Prop :=
  ∀ tokens parsed, reader tokens = .ok parsed →
    phrase.ReadFrom limit tokens parsed ∧ phrase.EndsBefore parsed.rest

namespace ReadFrom

theorem single {limit : Nat} {level : Level} {tokens : List Token} {parsed : Parsed}
    (reading : level.operand.ReadFrom limit tokens parsed) :
    (Phrase.joined level).ReadFrom limit tokens parsed := by
  obtain ⟨used, parts, derivation⟩ := reading.derived
  exact ⟨⟨used, parts, .single derivation⟩, reading.height_eq, reading.height_le⟩

theorem joined {limit : Nat} {level : Level} {tokens rest : List Token} {operator : Token}
    {left right : Parsed} (begun : (Phrase.joined level).ReadFrom limit tokens left)
    (next : left.rest = operator :: rest) (member : operator.kind ∈ level.operators)
    (reading : level.operand.ReadFrom limit rest right)
    (low : (left.binary operator right).height ≤ limit) :
    (Phrase.joined level).ReadFrom limit tokens (left.binary operator right) := by
  obtain ⟨before, beforeParts, beforeDerivation⟩ := begun.derived
  obtain ⟨behind, behindParts, behindDerivation⟩ := reading.derived
  refine ⟨⟨before ++ operator :: behind, ?_, .joined beforeDerivation member behindDerivation⟩,
    ?_, low⟩
  · rw [beforeParts, next, behindParts]
    simp [Parsed.binary]
  · simp only [Parsed.binary, Expr.height, begun.height_eq, reading.height_eq]

theorem unary {limit : Nat} {operator : Token} {rest : List Token} {operand : Parsed}
    (member : operator.kind ∈ Kind.unaryOperators)
    (reading : Phrase.unary.ReadFrom limit rest operand)
    (low : (Parsed.unary operator operand).height ≤ limit) :
    Phrase.unary.ReadFrom limit (operator :: rest) (Parsed.unary operator operand) := by
  obtain ⟨used, parts, derivation⟩ := reading.derived
  refine ⟨⟨operator :: used, ?_, .unary member derivation⟩, ?_, low⟩
  · rw [parts]
    simp [Parsed.unary]
  · simp only [Parsed.unary, Expr.height, reading.height_eq]

theorem group {limit : Nat} {opening closing : Token} {tokens rest : List Token} {inner : Parsed}
    (isOpening : opening.kind = .leftParen)
    (reading : (Phrase.joined .equality).ReadFrom limit tokens inner)
    (next : inner.rest = closing :: rest) (isClosing : closing.kind = .rightParen)
    (low : (inner.group rest).height ≤ limit) :
    Phrase.unary.ReadFrom limit (opening :: tokens) (inner.group rest) := by
  obtain ⟨used, parts, derivation⟩ := reading.derived
  refine ⟨⟨opening :: (used ++ [closing]), ?_, .primary (.group isOpening derivation isClosing)⟩,
    ?_, low⟩
  · rw [parts, next]
    simp [Parsed.group]
  · simp only [Parsed.group, Expr.height, reading.height_eq]

end ReadFrom

end Phrase

namespace Grammar

/-- The loop over the operators of a level keeps a phrase of that level in hand. It stops
    only before a token that is no such operator. -/
theorem chainFrom_sound {limit : Nat} {level : Level} {reader : List Token → Reading}
    (sound : level.operand.Sound limit reader) {tokens : List Token} {left : Parsed}
    (begun : (Phrase.joined level).ReadFrom limit tokens left)
    (ends : level.operand.EndsBefore left.rest) {parsed : Parsed}
    (accepted : chainFrom limit level reader left = .ok parsed) :
    (Phrase.joined level).ReadFrom limit tokens parsed ∧
      (Phrase.joined level).EndsBefore parsed.rest := by
  fun_induction chainFrom limit level reader left with
  | case1 left next =>
      cases accepted
      exact ⟨begun, by simp [Phrase.EndsBefore, next]⟩
  | case2 => cases accepted
  | case3 left operator rest next isOperator right read low ih =>
      have member := (Kind.level?_eq_some_iff _ _).mp isOperator
      obtain ⟨reading, readingEnds⟩ := sound rest right read
      exact ih (begun.joined next member reading low) readingEnds accepted
  | case4 => cases accepted
  | case5 left operator rest next notOperator =>
      cases accepted
      refine ⟨begun, (Phrase.endsBefore_joined_iff _ _).mpr ⟨?_, ends⟩⟩
      intro token isHead member
      obtain rfl : operator = token := by simpa [next] using isHead
      exact notOperator ((Kind.level?_eq_some_iff _ _).mpr member)

theorem chain_sound {limit : Nat} {level : Level} {reader : List Token → Reading}
    (sound : level.operand.Sound limit reader) :
    (Phrase.joined level).Sound limit (chain limit level reader) := by
  intro tokens parsed accepted
  unfold chain at accepted
  split at accepted
  · cases accepted
  · rename_i left read
    obtain ⟨reading, ends⟩ := sound tokens left read
    exact chainFrom_sound sound reading.single ends accepted

theorem expression_sound {limit : Nat} {reader : List Token → Reading}
    (sound : Phrase.unary.Sound limit reader) :
    (Phrase.joined .equality).Sound limit (expression limit reader) := by
  have factor : (Phrase.joined .factor).Sound limit (chain limit .factor reader) :=
    chain_sound sound
  have term := @chain_sound limit .term _ factor
  have comparison := @chain_sound limit .comparison _ term
  exact @chain_sound limit .equality _ comparison

theorem readLiteral_sound {limit : Nat} (positive : 0 < limit) {token : Token}
    {rest : List Token} {parsed : Parsed} (accepted : readLiteral token rest = .ok parsed) :
    Phrase.unary.ReadFrom limit (token :: rest) parsed := by
  unfold readLiteral at accepted
  split at accepted
  · rename_i value found
    cases accepted
    have terminal := (token.operandValue?_eq_some_iff value).mp found
    exact ⟨⟨[token], rfl, .primary (.literal terminal)⟩, rfl, positive⟩
  · cases accepted

theorem closeGroup_sound {limit : Nat} {opening : Token} {tokens : List Token}
    {inner parsed : Parsed} (isOpening : opening.kind = .leftParen)
    (reading : (Phrase.joined .equality).ReadFrom limit tokens inner)
    (accepted : closeGroup limit inner = .ok parsed) :
    Phrase.unary.ReadFrom limit (opening :: tokens) parsed := by
  unfold closeGroup at accepted
  split at accepted
  · cases accepted
  · rename_i closing rest next
    split at accepted
    · rename_i isClosing
      obtain ⟨low, rfl⟩ := (Parsed.within_eq_ok_iff _ _ _).mp accepted
      exact .group isOpening reading next isClosing low
    · cases accepted

/-- The three ways to read an operand. The two that open something use up room. -/
theorem operand_eq_ok {limit room : Nat} {tokens : List Token} {parsed : Parsed}
    (accepted : operand limit room tokens = .ok parsed) :
    ∃ token rest, tokens = token :: rest ∧
      (readLiteral token rest = .ok parsed ∨
        ∃ less, room = less + 1 ∧
          ((token.kind.isUnary = true ∧ ∃ inner, operand limit less rest = .ok inner ∧
              (Parsed.unary token inner).within limit = .ok parsed) ∨
            (token.kind = .leftParen ∧ ∃ inner,
              expression limit (operand limit less) rest = .ok inner ∧
                closeGroup limit inner = .ok parsed))) := by
  cases tokens with
  | nil => simp [operand] at accepted
  | cons token rest =>
      refine ⟨token, rest, rfl, ?_⟩
      cases room with
      | zero =>
          simp only [operand] at accepted
          split at accepted
          · cases accepted
          · exact .inl accepted
      | succ less =>
          simp only [operand] at accepted
          split at accepted
          · rename_i isUnary
            split at accepted
            · cases accepted
            · rename_i inner read
              exact .inr ⟨less, rfl, .inl ⟨isUnary, inner, read, accepted⟩⟩
          · split at accepted
            · rename_i isOpening
              split at accepted
              · cases accepted
              · rename_i inner read
                exact .inr ⟨less, rfl, .inr ⟨isOpening, inner, read, accepted⟩⟩
            · exact .inl accepted

theorem operand_sound {limit : Nat} (positive : 0 < limit) (room : Nat) :
    Phrase.unary.Sound limit (operand limit room) := by
  induction room using Nat.strongRecOn with
  | ind room ih =>
      intro tokens parsed accepted
      refine ⟨?_, by simp [Phrase.EndsBefore, Phrase.continuations]⟩
      obtain ⟨token, rest, rfl, literal | ⟨less, rfl, opened⟩⟩ := operand_eq_ok accepted
      · exact readLiteral_sound positive literal
      · have sound := ih less (Nat.lt_succ_self less)
        obtain ⟨isUnary, inner, read, checked⟩ | ⟨isOpening, inner, read, closed⟩ := opened
        · obtain ⟨low, rfl⟩ := (Parsed.within_eq_ok_iff _ _ _).mp checked
          exact .unary ((Kind.isUnary_iff _).mp isUnary) (sound rest inner read).1 low
        · exact closeGroup_sound isOpening (expression_sound sound rest inner read).1 closed

theorem readWithin_sound {limit : Nat} (positive : 0 < limit) :
    (Phrase.joined .equality).Sound limit (readWithin limit) :=
  expression_sound (operand_sound positive limit)

end Grammar

namespace Grammar

variable {limit room : Nat} {level : Level} {reader : List Token → Reading}

theorem chainFrom_of_ends {left : Parsed}
    (ends : ∀ token ∈ left.rest.head?, token.kind ∉ level.operators) :
    chainFrom limit level reader left = .ok left := by
  unfold chainFrom
  split
  · rfl
  · rename_i operator rest next
    have notOperator : ¬ operator.kind.level? = some level := fun isOperator =>
      ends operator (by simp [next]) ((Kind.level?_eq_some_iff _ _).mp isOperator)
    simp only [notOperator, if_false]

theorem chainFrom_step {left right : Parsed} {operator : Token} {rest : List Token}
    (next : left.rest = operator :: rest) (member : operator.kind ∈ level.operators)
    (read : reader rest = .ok right) (low : (left.binary operator right).height ≤ limit) :
    chainFrom limit level reader left =
      chainFrom limit level reader (left.binary operator right) := by
  rw [chainFrom]
  simp only [next, (Kind.level?_eq_some_iff _ _).mpr member, if_true, read, low, dite_true]

theorem chain_of_operand {tokens : List Token} {left : Parsed} (read : reader tokens = .ok left) :
    chain limit level reader tokens = chainFrom limit level reader left := by
  simp only [chain, read]

theorem operand_literal {token : Token} {value : Value} (terminal : Terminal token value)
    (rest : List Token) : operand limit room (token :: rest) = .ok (.literal value rest) := by
  obtain ⟨notUnary, notOpening⟩ := terminal.opens_nothing
  have read : readLiteral token rest = .ok (.literal value rest) := by
    simp only [readLiteral, (token.operandValue?_eq_some_iff value).mpr terminal]
  cases room with
  | zero => simpa [operand, notUnary, notOpening] using read
  | succ room => simpa [operand, notUnary, notOpening] using read

theorem operand_unary {operator : Token} {rest : List Token} {inner : Parsed}
    (member : operator.kind ∈ Kind.unaryOperators) (read : operand limit room rest = .ok inner)
    (low : inner.height + 1 ≤ limit) :
    operand limit (room + 1) (operator :: rest) = .ok (.unary operator inner) := by
  simp only [operand, (Kind.isUnary_iff _).mpr member, if_true, read]
  exact (Parsed.within_eq_ok_iff _ _ _).mpr ⟨low, rfl⟩

theorem operand_group {opening closing : Token} {tokens rest : List Token} {inner : Parsed}
    (isOpening : opening.kind = .leftParen)
    (read : expression limit (operand limit room) tokens = .ok inner)
    (next : inner.rest = closing :: rest) (isClosing : closing.kind = .rightParen)
    (low : inner.height + 1 ≤ limit) :
    operand limit (room + 1) (opening :: tokens) = .ok (inner.group rest) := by
  have notUnary : ¬ opening.kind.isUnary = true := by simp [isOpening, Kind.isUnary]
  rw [operand, if_neg notUnary, if_pos isOpening]
  simp only [read, closeGroup, next, isClosing, if_true]
  exact (Parsed.within_eq_ok_iff _ _ _).mpr ⟨low, rfl⟩

end Grammar

namespace Phrase

/-- Reading the tokens of a phrase leads to its tree. A reader of joined operands then still
    looks for further operators. -/
def Leads (limit room : Nat) (phrase : Phrase) (tokens : List Token) (expr : Expr) : Prop :=
  match phrase with
  | .joined level => ∀ rest, level.operand.EndsBefore rest →
      (Phrase.joined level).read limit room (tokens ++ rest) =
        chainFrom limit level (level.operand.read limit room) ⟨expr, expr.height, rest⟩
  | .unary | .primary => ∀ rest,
      operand limit room (tokens ++ rest) = .ok ⟨expr, expr.height, rest⟩

theorem Leads.read_eq {limit room : Nat} {phrase : Phrase} {tokens rest : List Token} {expr : Expr}
    (leads : phrase.Leads limit room tokens expr) (ends : phrase.EndsBefore rest) :
    phrase.read limit room (tokens ++ rest) = .ok ⟨expr, expr.height, rest⟩ := by
  cases phrase with
  | joined level =>
      obtain ⟨noOperator, operandEnds⟩ := (endsBefore_joined_iff level rest).mp ends
      rw [leads rest operandEnds]
      exact chainFrom_of_ends noOperator
  | unary | primary => exact leads rest

end Phrase

theorem Derives.leads {limit : Nat} {phrase : Phrase} {tokens : List Token} {expr : Expr}
    (derivation : Derives phrase tokens expr) (low : expr.height ≤ limit) :
    ∀ room, expr.height ≤ room + 1 → phrase.Leads limit room tokens expr := by
  -- The room is free in the induction: what opens something is read with less room than stands in
  -- the statement for the whole.
  induction derivation with
  | single _ ih =>
      intro room enough rest ends
      rw [Phrase.read_joined, chain_of_operand ((ih low room enough).read_eq ends)]
  | @joined level before behind operator left right _ member _ ihBefore ihBehind =>
      intro room enough rest ends
      simp only [Expr.height] at low enough
      have begun := ihBefore (by omega) room (by omega) (operator :: (behind ++ rest))
        (Phrase.endsBefore_operator member _)
      have read := (ihBehind (by omega) room (by omega)).read_eq ends
      rw [List.append_assoc, List.cons_append, begun]
      exact chainFrom_step rfl member read low
  | unary member _ ih =>
      intro room enough rest
      simp only [Expr.height] at low enough
      obtain ⟨less, rfl⟩ : ∃ less, room = less + 1 :=
        ⟨room - 1, by have := Expr.height_pos ‹_›; omega⟩
      exact operand_unary member (ih (by omega) less (by omega) rest) low
  | primary _ ih =>
      intro room enough rest
      exact ih low room enough rest
  | @group tokens opening closing inner isOpening _ isClosing ih =>
      intro room enough rest
      simp only [Expr.height] at low enough
      obtain ⟨less, rfl⟩ : ∃ less, room = less + 1 :=
        ⟨room - 1, by have := inner.height_pos; omega⟩
      have ends : (Phrase.joined .equality).EndsBefore (closing :: rest) := by
        intro token isHead
        obtain rfl : closing = token := by simpa using isHead
        simp [isClosing, Phrase.continuations, Kind.binaryOperators]
      have read := (ih (by omega) less (by omega)).read_eq ends
      change operand limit (less + 1) (opening :: (tokens ++ [closing]) ++ rest) = _
      rw [List.cons_append, List.append_assoc]
      exact operand_group isOpening read rfl isClosing low
  | literal terminal =>
      intro room _ rest
      exact operand_literal terminal rest

end Reckoner
