import Reckoner.Proofs.Grammar.Verdict

/-! # One token ahead

The reader decides by the next token alone. Where two lists agree on what is read and on the
token behind it, they are read alike, whatever follows. An end token is never read, so nothing
behind the next one matters, neither to parsing nor to the search for the next statement.
-/

namespace Reckoner

/-- The same reading with other tokens behind it. -/
def Reading.leaving (rest : List Token) : Reading → Reading
  | .ok parsed => .ok { parsed with rest }
  | .error rejection => .error { rejection with rest }

namespace Grammar

variable {limit room : Nat} {level : Level} {reader : List Token → Reading}
  {next : Parsed → Reading}

/-- Behind the tokens that it reads, the reader looks at no more than the next one. -/
def Local (reader : List Token → Reading) : Prop :=
  ∀ used rest rest', Reading.rest (reader (used ++ rest)) = rest →
    upcoming rest = upcoming rest' →
      reader (used ++ rest') = Reading.leaving rest' (reader (used ++ rest))

/-- The same of what goes on from an expression. -/
def LocalFrom (next : Parsed → Reading) : Prop :=
  ∀ parsed more rest rest', parsed.rest = more ++ rest → Reading.rest (next parsed) = rest →
    upcoming rest = upcoming rest' →
      next { parsed with rest := more ++ rest' } = Reading.leaving rest' (next parsed)

theorem upcoming_append {rest rest' : List Token} (same : upcoming rest = upcoming rest')
    (more : List Token) : upcoming (more ++ rest) = upcoming (more ++ rest') := by
  cases more with
  | nil => exact same
  | cons => rfl

theorem forall_head?_of_upcoming {property : Token → Prop} {rest rest' : List Token}
    (same : upcoming rest = upcoming rest')
    (ofEnd : ∀ token : Token, token.kind = .endOfInput → property token)
    (holds : ∀ token ∈ rest.head?, property token) : ∀ token ∈ rest'.head?, property token := by
  intro token isHead
  by_cases isEnd : token.kind = .endOfInput
  · exact ofEnd token isEnd
  · have isNext : upcoming rest = some token := by
      rw [same, upcoming, isHead, Option.filter_some, if_pos (by simp [isEnd])]
    exact holds token (Option.filter_eq_some_iff.mp isNext).1

namespace Local

variable {used rest rest' : List Token}

theorem of_ok (isLocal : Local reader) {parsed : Parsed}
    (read : reader (used ++ rest) = .ok parsed) (leaves : parsed.rest = rest)
    (same : upcoming rest = upcoming rest') :
    reader (used ++ rest') = .ok { parsed with rest := rest' } := by
  have alike := isLocal used rest rest' (by rw [read]; exact leaves) same
  rw [alike, read]
  rfl

theorem of_error (isLocal : Local reader) {rejection : Rejection}
    (read : reader (used ++ rest) = .error rejection) (leaves : rejection.rest = rest)
    (same : upcoming rest = upcoming rest') :
    reader (used ++ rest') = .error { rejection with rest := rest' } := by
  have alike := isLocal used rest rest' (by rw [read]; exact leaves) same
  rw [alike, read]
  rfl

end Local

theorem exists_split {used middle rest : List Token} (leaves : middle <:+ used ++ rest)
    (behind : rest <:+ middle) : ∃ before more, used = before ++ more ∧ middle = more ++ rest := by
  obtain ⟨before, isBefore⟩ := leaves
  obtain ⟨more, rfl⟩ := behind
  refine ⟨before, more, ?_, rfl⟩
  apply List.append_cancel_right
  rw [List.append_assoc, isBefore]

theorem bind_local (recedes : Recedes reader) (isLocal : Local reader)
    (recedesFrom : RecedesFrom next) (localFrom : LocalFrom next) :
    Local fun tokens => (reader tokens).bind next := by
  intro used rest rest' leaves same
  cases read : reader (used ++ rest) with
  | error rejection =>
      simp only [read, Except.bind] at leaves ⊢
      rw [isLocal.of_error read leaves same]
      rfl
  | ok parsed =>
      simp only [read, Except.bind] at leaves ⊢
      have behind : rest <:+ parsed.rest := leaves ▸ recedesFrom parsed
      obtain ⟨before, more, rfl, isMore⟩ := exists_split (recedes.of_ok read) behind
      rw [List.append_assoc] at read ⊢
      rw [isLocal.of_ok read isMore (upcoming_append same more)]
      exact localFrom parsed more rest rest' isMore leaves same

theorem exists_cons_of_suffix {first : Token} {tokens more rest : List Token}
    (parts : first :: tokens = more ++ rest) (leaves : rest <:+ tokens) :
    ∃ more', more = first :: more' ∧ tokens = more' ++ rest := by
  cases more with
  | nil =>
      have shorter := leaves.length_le
      have lengths := congrArg List.length parts
      simp only [List.length_cons, List.nil_append] at lengths
      omega
  | cons other more' =>
      obtain ⟨rfl, rfl⟩ := List.cons.inj parts
      exact ⟨more', rfl, rfl⟩

theorem chainFrom_of_upcoming {left : Parsed} {rest : List Token}
    (same : upcoming left.rest = upcoming rest)
    (ends : ∀ token ∈ left.rest.head?, token.kind ∉ level.operators) :
    chainFrom limit level reader { left with rest } = .ok { left with rest } := by
  apply chainFrom_of_ends
  refine forall_head?_of_upcoming same ?_ ends
  intro token isEnd
  cases level <;> simp [isEnd, Level.operators]

theorem chainFrom_local (recedes : Recedes reader) (isLocal : Local reader) :
    LocalFrom (chainFrom limit level reader) := by
  intro left more rest rest' parts leaves same
  -- By induction on the turns of the loop. A turn before the last one has more tokens to read
  -- behind it, and these are the same in both lists.
  fun_induction chainFrom limit level reader left generalizing more with
  | case1 left isNext =>
      obtain rfl : left.rest = rest := leaves
      obtain rfl : more = [] := List.self_eq_append_left.mp parts
      exact chainFrom_of_upcoming same (by simp [isNext])
  | case2 left operator tokens isNext isOperator rejection refused =>
      obtain rfl : rejection.rest = rest := leaves
      obtain ⟨more', rfl, rfl⟩ :=
        exists_cons_of_suffix (isNext.symm.trans parts) (recedes.of_error refused)
      have refused' := isLocal.of_error refused rfl same
      rw [chainFrom]
      simp only [List.cons_append, isOperator, if_true, refused']
      rfl
  | case3 left operator tokens isNext isOperator right read low ih =>
      have member := (Kind.level?_eq_some_iff _ _).mp isOperator
      have behind : rest <:+ right.rest :=
        leaves ▸ chainFrom_recedes recedes (left.binary operator right)
      obtain ⟨more', rfl, rfl⟩ :=
        exists_cons_of_suffix (isNext.symm.trans parts) (behind.trans (recedes.of_ok read))
      obtain ⟨used, between, rfl, isBetween⟩ := exists_split (recedes.of_ok read) behind
      rw [List.append_assoc] at read
      have read' := isLocal.of_ok read isBetween (upcoming_append same between)
      rw [List.cons_append, List.append_assoc, ← ih between isBetween leaves]
      exact chainFrom_step rfl member read' low
  | case4 left operator tokens isNext isOperator right read high =>
      obtain rfl : right.rest = rest := leaves
      obtain ⟨more', rfl, rfl⟩ :=
        exists_cons_of_suffix (isNext.symm.trans parts) (recedes.of_ok read)
      have read' := isLocal.of_ok read rfl same
      have high' : ¬ (Parsed.binary { left with rest := operator :: (more' ++ rest') } operator
          { right with rest := rest' }).height ≤ limit := high
      rw [chainFrom]
      simp only [List.cons_append, isOperator, if_true, read', high', dite_false]
      rfl
  | case5 left operator tokens isNext notOperator =>
      obtain rfl : left.rest = rest := leaves
      obtain rfl : more = [] := List.self_eq_append_left.mp parts
      refine chainFrom_of_upcoming same ?_
      intro token isHead member
      obtain rfl : operator = token := by simpa [isNext] using isHead
      exact notOperator ((Kind.level?_eq_some_iff _ _).mpr member)

theorem chain_local (recedes : Recedes reader) (isLocal : Local reader) :
    Local (chain limit level reader) := by
  rw [show chain limit level reader = _ from funext chain_eq_bind]
  exact bind_local recedes isLocal (chainFrom_recedes recedes) (chainFrom_local recedes isLocal)

theorem expression_local (recedes : Recedes reader) (isLocal : Local reader) :
    Local (expression limit reader) := by
  have factor := @chain_local limit .factor _ recedes isLocal
  have term := @chain_local limit .term _ (chain_recedes recedes) factor
  have comparison := @chain_local limit .comparison _ (chain_recedes (chain_recedes recedes)) term
  exact chain_local (chain_recedes (chain_recedes (chain_recedes recedes))) comparison

theorem within_leaving (parsed : Parsed) (rest : List Token) :
    Parsed.within limit { parsed with rest } = Reading.leaving rest (parsed.within limit) := by
  by_cases low : parsed.height ≤ limit
  · simp only [Parsed.within, low, if_true, Reading.leaving]
  · simp only [Parsed.within, low, if_false, Reading.leaving]

theorem unary_local (operator : Token) :
    LocalFrom fun inner => (Parsed.unary operator inner).within limit := by
  intro inner more rest rest' parts leaves _
  simp only [within_rest, Parsed.unary] at leaves
  obtain rfl : inner.rest = rest := leaves
  obtain rfl : more = [] := List.self_eq_append_left.mp parts
  exact within_leaving (Parsed.unary operator inner) rest'

theorem closeGroup_local : LocalFrom (closeGroup limit) := by
  intro inner more rest rest' parts leaves same
  by_cases unclosed : ∀ token ∈ inner.rest.head?, token.kind ≠ .rightParen
  · rw [closeGroup_of_unclosed unclosed] at leaves ⊢
    obtain rfl : inner.rest = rest := leaves
    obtain rfl : more = [] := List.self_eq_append_left.mp parts
    refine closeGroup_of_unclosed (forall_head?_of_upcoming same ?_ unclosed)
    intro token isEnd
    simp [isEnd]
  · obtain ⟨closing, tokens, isNext, isClosing⟩ := exists_cons_of_head? unclosed
    rw [closeGroup_of_closing isNext isClosing] at leaves ⊢
    rw [within_rest] at leaves
    obtain rfl : tokens = rest := leaves
    obtain ⟨more', rfl, nothing⟩ :=
      exists_cons_of_suffix (isNext.symm.trans parts) List.suffix_rfl
    obtain rfl : more' = [] := List.self_eq_append_left.mp nothing
    rw [closeGroup_of_closing rfl isClosing]
    exact within_leaving (inner.group tokens) rest'

theorem BeginsOperand.kind_ne_endOfInput {token : Token} (begins : BeginsOperand token) :
    token.kind ≠ .endOfInput := by
  obtain member | isOpening | terminal := begins
  · exact Token.AwaitsOperand.kind_ne_endOfInput (.inl member)
  · exact Token.AwaitsOperand.kind_ne_endOfInput (.inr (.inr isOpening))
  · exact Token.EndsOperand.kind_ne_endOfInput (.inl terminal)

theorem not_beginsOperand_of_rest {rest : List Token}
    (leaves : Reading.rest (operand limit room rest) = rest) :
    ∀ token ∈ rest.head?, ¬ BeginsOperand token := by
  intro token isHead begins
  obtain ⟨tokens, rfl⟩ := List.head?_eq_some_iff.mp isHead
  have shorter := (leaves ▸ operand_advances begins tokens).length_le
  exact Nat.not_succ_le_self _ shorter

theorem operand_local_nil {rest rest' : List Token}
    (leaves : Reading.rest (operand limit room rest) = rest)
    (same : upcoming rest = upcoming rest') :
    operand limit room rest' = Reading.leaving rest' (operand limit room rest) := by
  have missing := not_beginsOperand_of_rest leaves
  rw [operand_eq_of_missing missing]
  refine operand_eq_of_missing (forall_head?_of_upcoming same ?_ missing)
  exact fun token isEnd begins => begins.kind_ne_endOfInput isEnd

theorem operand_local (limit room : Nat) : Local (operand limit room) := by
  induction room using Nat.strongRecOn with
  | ind room ih =>
      intro used rest rest' leaves same
      cases used with
      | nil => exact operand_local_nil leaves same
      | cons token used =>
          rw [List.cons_append] at leaves ⊢
          rw [List.cons_append]
          by_cases begins : BeginsOperand token
          · obtain member | isOpening | ⟨value, terminal⟩ := begins
            · cases room with
              | zero =>
                  rw [operand_eq_of_full (.inl member)] at leaves
                  obtain rfl : used = [] := List.append_left_eq_self.mp leaves
                  rw [operand_eq_of_full (.inl member), operand_eq_of_full (.inl member)]
                  rfl
              | succ room =>
                  rw [operand_eq_of_unary member] at leaves ⊢
                  rw [operand_eq_of_unary member]
                  exact bind_local (operand_recedes limit room) (ih room (Nat.lt_succ_self room))
                    (unary_recedes token) (unary_local token) used rest rest' leaves same
            · cases room with
              | zero =>
                  rw [operand_eq_of_full (.inr isOpening)] at leaves
                  obtain rfl : used = [] := List.append_left_eq_self.mp leaves
                  rw [operand_eq_of_full (.inr isOpening), operand_eq_of_full (.inr isOpening)]
                  rfl
              | succ room =>
                  have recedes := operand_recedes limit room
                  have isLocal := ih room (Nat.lt_succ_self room)
                  rw [operand_eq_of_opening isOpening] at leaves ⊢
                  rw [operand_eq_of_opening isOpening]
                  exact bind_local (expression_recedes recedes) (expression_local recedes isLocal)
                    (closeGroup_recedes limit) closeGroup_local used rest rest' leaves same
            · rw [operand_literal terminal] at leaves
              obtain rfl : used = [] := List.append_left_eq_self.mp leaves
              rw [operand_literal terminal, operand_literal terminal]
              rfl
          · rw [operand_eq_of_missing (by simpa using begins)] at leaves
            have lengths := congrArg List.length leaves
            simp only [Reading.rest, List.length_cons, List.length_append] at lengths
            omega

theorem readWithin_local (limit : Nat) : Local (readWithin limit) :=
  expression_local (operand_recedes limit limit) (operand_local limit limit)

end Grammar

end Reckoner
