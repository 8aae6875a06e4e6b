import Reckoner.Proofs.Grammar.Lookahead

/-! # Trees only grow

A reader that stops between two tokens may go on from there in another list. What it gives
then is no lower than what it gave, at every level of precedence. So what was too tall where
the reader gave up is too tall however the tokens go on.
-/

namespace Reckoner

/-- A tree is no taller than the height, and a refusal is not for the depth. -/
def Reading.Allows (height : Nat) : Reading → Prop
  | .ok parsed => parsed.height ≤ height
  | .error rejection => rejection.fault ≠ .tooDeep

/-- The other expression is no lower. If more of the first one's tokens are to be read, these
    stand behind the other one too. -/
structure Parsed.Grown (more rest' : List Token) (parsed parsed' : Parsed) : Prop where
  height_le : parsed.height ≤ parsed'.height
  rest_eq : more ≠ [] → parsed'.rest = more ++ rest'

theorem Parsed.Grown.binary {more rest' : List Token} {left left' right right' : Parsed}
    (grown : right.Grown more rest' right') (taller : left.height ≤ left'.height)
    (operator : Token) :
    (left.binary operator right).Grown more rest' (left'.binary operator right') := by
  refine ⟨?_, grown.rest_eq⟩
  have := grown.height_le
  simp only [Parsed.binary]
  omega

namespace Grammar

variable {limit room : Nat} {level : Level} {reader : List Token → Reading}
  {next : Parsed → Reading}

/-- Where the reader stops, another list that it accepts may go on, to a tree that is no
    lower. -/
def Grows (reader : List Token → Reading) : Prop :=
  ∀ used rest rest' final, Reading.rest (reader (used ++ rest)) = rest →
    reader (used ++ rest') = .ok final → Reading.Allows final.height (reader (used ++ rest))

/-- The same of what goes on from an expression, which may be taller in the other list. -/
def GrowsFrom (next : Parsed → Reading) : Prop :=
  ∀ parsed parsed' more rest rest' final, parsed.rest = more ++ rest →
    Reading.rest (next parsed) = rest → Parsed.Grown more rest' parsed parsed' →
      next parsed' = .ok final → Reading.Allows final.height (next parsed)

/-- The readers of all levels behave so. -/
structure Steady (reader : List Token → Reading) : Prop where
  recedes : Recedes reader
  isLocal : Local reader
  grows : Grows reader

theorem Steady.grown (steady : Steady reader)
    {used more rest rest' : List Token} {parsed parsed' : Parsed}
    (read : reader (used ++ (more ++ rest)) = .ok parsed) (leaves : parsed.rest = more ++ rest)
    (read' : reader (used ++ (more ++ rest')) = .ok parsed') :
    Parsed.Grown more rest' parsed parsed' := by
  refine ⟨?_, ?_⟩
  · have allows := steady.grows used (more ++ rest) (more ++ rest') parsed'
      (by rw [read]; exact leaves) read'
    rwa [read] at allows
  · intro goesOn
    obtain ⟨token, more', rfl⟩ := List.exists_cons_of_ne_nil goesOn
    have same : reader (used ++ (token :: more' ++ rest')) =
        .ok { parsed with rest := token :: more' ++ rest' } :=
      steady.isLocal.of_ok read leaves rfl
    obtain rfl := Except.ok.inj (same.symm.trans read')
    rfl

theorem bind_grows (steady : Steady reader) (recedesFrom : RecedesFrom next)
    (growsFrom : GrowsFrom next) : Grows fun tokens => (reader tokens).bind next := by
  intro used rest rest' final leaves accepted
  cases read' : reader (used ++ rest') with
  | error => simp [read', Except.bind] at accepted
  | ok parsed' =>
      simp only [read', Except.bind] at accepted
      cases read : reader (used ++ rest) with
      | error rejection =>
          simp only [read, Except.bind] at leaves ⊢
          have allows := steady.grows used rest rest' parsed' (by rw [read]; exact leaves) read'
          rwa [read] at allows
      | ok parsed =>
          simp only [read, Except.bind] at leaves ⊢
          have behind : rest <:+ parsed.rest := leaves ▸ recedesFrom parsed
          obtain ⟨before, more, rfl, isMore⟩ := exists_split (steady.recedes.of_ok read) behind
          rw [List.append_assoc] at read read'
          exact growsFrom parsed parsed' more rest rest' final isMore leaves
            (steady.grown read isMore read') accepted

theorem chainFrom_height_le {left final : Parsed}
    (accepted : chainFrom limit level reader left = .ok final) : left.height ≤ final.height := by
  fun_induction chainFrom limit level reader left with
  | case1 | case5 =>
      cases accepted
      exact Nat.le_refl _
  | case2 | case4 => cases accepted
  | case3 left operator rest _ _ right _ _ ih =>
      have taller : left.height ≤ (left.binary operator right).height := by
        simp only [Parsed.binary]
        omega
      exact Nat.le_trans taller (ih accepted)

theorem exists_turn {left final : Parsed} {operator : Token} {rest : List Token}
    (isNext : left.rest = operator :: rest) (isOperator : operator.kind.level? = some level)
    (accepted : chainFrom limit level reader left = .ok final) :
    ∃ right, reader rest = .ok right ∧ (left.binary operator right).height ≤ limit ∧
      chainFrom limit level reader (left.binary operator right) = .ok final := by
  rw [chainFrom, isNext] at accepted
  simp only [isOperator, if_true] at accepted
  split at accepted
  · cases accepted
  · rename_i right read
    split at accepted
    · rename_i low
      exact ⟨right, read, low, accepted⟩
    · cases accepted

theorem chainFrom_grows (steady : Steady reader) :
    GrowsFrom (chainFrom limit level reader) := by
  intro left left' more rest rest' final parts leaves grown accepted
  -- By induction on the turns of the loop. The other list has the same turns up to the last one,
  -- each of a tree that is no lower.
  fun_induction chainFrom limit level reader left generalizing more left' with
  | case1 left | case5 left => exact Nat.le_trans grown.height_le (chainFrom_height_le accepted)
  | case2 left operator tokens isNext isOperator rejection refused =>
      obtain rfl : rejection.rest = rest := leaves
      obtain ⟨more', rfl, rfl⟩ :=
        exists_cons_of_suffix (isNext.symm.trans parts) (steady.recedes.of_error refused)
      have isNext' := grown.rest_eq (List.cons_ne_nil _ _)
      obtain ⟨right', read', _, _⟩ := exists_turn isNext' isOperator accepted
      have allows := steady.grows more' _ rest' right' (by rw [refused]; rfl) read'
      rwa [refused] at allows
  | case3 left operator tokens isNext isOperator right read low ih =>
      have behind : rest <:+ right.rest :=
        leaves ▸ chainFrom_recedes steady.recedes (left.binary operator right)
      obtain ⟨more', rfl, rfl⟩ :=
        exists_cons_of_suffix (isNext.symm.trans parts) (behind.trans (steady.recedes.of_ok read))
      obtain ⟨used, between, rfl, isBetween⟩ := exists_split (steady.recedes.of_ok read) behind
      have isNext' := grown.rest_eq (List.cons_ne_nil _ _)
      obtain ⟨right', read', _, accepted'⟩ := exists_turn isNext' isOperator accepted
      simp only [List.append_eq, List.append_assoc] at read read'
      have grownRight := steady.grown read isBetween read'
      exact ih _ between isBetween leaves (grownRight.binary grown.height_le operator) accepted'
  | case4 left operator tokens isNext isOperator right read high =>
      obtain rfl : right.rest = rest := leaves
      obtain ⟨more', rfl, rfl⟩ :=
        exists_cons_of_suffix (isNext.symm.trans parts) (steady.recedes.of_ok read)
      have isNext' := grown.rest_eq (List.cons_ne_nil _ _)
      obtain ⟨right', read', low, _⟩ := exists_turn isNext' isOperator accepted
      have grownRight : right.Grown [] rest' right' := steady.grown read rfl read'
      exact absurd (Nat.le_trans (grownRight.binary grown.height_le operator).height_le low) high

theorem Steady.chain (steady : Steady reader) : Steady (chain limit level reader) := by
  refine ⟨chain_recedes steady.recedes, chain_local steady.recedes steady.isLocal, ?_⟩
  rw [show Grammar.chain limit level reader = _ from funext chain_eq_bind]
  exact bind_grows steady (chainFrom_recedes steady.recedes) (chainFrom_grows steady)

theorem Steady.expression (steady : Steady reader) : Steady (expression limit reader) :=
  steady.chain.chain.chain.chain

theorem within_grows {parsed parsed' final : Parsed} (taller : parsed.height ≤ parsed'.height)
    (accepted : parsed'.within limit = .ok final) :
    Reading.Allows final.height (parsed.within limit) := by
  obtain ⟨low, rfl⟩ := (Parsed.within_eq_ok_iff _ _ _).mp accepted
  rw [Parsed.within, if_pos (Nat.le_trans taller low)]
  exact taller

theorem unary_grows (operator : Token) :
    GrowsFrom fun inner => (Parsed.unary operator inner).within limit := by
  intro inner inner' more rest rest' final _ _ grown accepted
  have taller : (Parsed.unary operator inner).height ≤ (Parsed.unary operator inner').height :=
    Nat.succ_le_succ grown.height_le
  exact within_grows taller accepted

theorem closeGroup_grows : GrowsFrom (closeGroup limit) := by
  intro inner inner' more rest rest' final parts leaves grown accepted
  by_cases unclosed : ∀ token ∈ inner.rest.head?, token.kind ≠ .rightParen
  · rw [closeGroup_of_unclosed unclosed]
    exact SyntaxFault.noConfusion
  · obtain ⟨closing, tokens, isNext, isClosing⟩ := exists_cons_of_head? unclosed
    rw [closeGroup_of_closing isNext isClosing] at leaves ⊢
    rw [within_rest] at leaves
    obtain rfl : tokens = rest := leaves
    obtain ⟨more', rfl, _⟩ := exists_cons_of_suffix (isNext.symm.trans parts) List.suffix_rfl
    have isNext' := grown.rest_eq (List.cons_ne_nil _ _)
    rw [closeGroup_of_closing isNext' isClosing] at accepted
    have taller : (inner.group tokens).height ≤ (inner'.group (more' ++ rest')).height :=
      Nat.succ_le_succ grown.height_le
    exact within_grows taller accepted

theorem operand_grows (limit room : Nat) : Grows (operand limit room) := by
  induction room using Nat.strongRecOn with
  | ind room ih =>
      have steady (less : Nat) (below : less < room) : Steady (operand limit less) :=
        ⟨operand_recedes limit less, operand_local limit less, ih less below⟩
      intro used rest rest' final leaves accepted
      cases used with
      | nil =>
          rw [List.nil_append] at leaves ⊢
          rw [operand_eq_of_missing (not_beginsOperand_of_rest leaves)]
          exact SyntaxFault.noConfusion
      | cons token used =>
          rw [List.cons_append] at leaves accepted ⊢
          by_cases begins : BeginsOperand token
          · obtain member | isOpening | ⟨value, terminal⟩ := begins
            · cases room with
              | zero => cases (operand_eq_of_full (.inl member) _).symm.trans accepted
              | succ room =>
                  rw [operand_eq_of_unary member] at leaves accepted ⊢
                  exact bind_grows (steady room (Nat.lt_succ_self room)) (unary_recedes token)
                    (unary_grows token) used rest rest' final leaves accepted
            · cases room with
              | zero => cases (operand_eq_of_full (.inr isOpening) _).symm.trans accepted
              | succ room =>
                  rw [operand_eq_of_opening isOpening] at leaves accepted ⊢
                  have inside : Steady (Grammar.expression limit (operand limit room)) :=
                    (steady room (Nat.lt_succ_self room)).expression
                  exact bind_grows inside (closeGroup_recedes limit) closeGroup_grows used rest
                    rest' final leaves accepted
            · rw [operand_literal terminal] at accepted ⊢
              cases accepted
              exact Nat.le_refl 1
          · rw [operand_eq_of_missing (by simpa using begins)]
            exact SyntaxFault.noConfusion

theorem readWithin_steady (limit : Nat) : Steady (readWithin limit) :=
  Steady.expression
    ⟨operand_recedes limit limit, operand_local limit limit, operand_grows limit limit⟩

end Grammar

end Reckoner
