import Reckoner.Proofs.Evaluation.Legality

/-! # What the reader leaves

The reader goes through the tokens from the front and never back. Whether it accepts or refuses,
what it leaves is an end of what it was given, so a refusal is placed at a token of the stream,
and the operators of a tree are tokens of the stream too.
-/

namespace Reckoner

/-- The tokens that are left behind an expression, or from the offending one on. -/
def Reading.rest : Reading → List Token
  | .ok parsed => parsed.rest
  | .error rejection => rejection.rest

namespace Grammar

/-- The reader leaves an end of its tokens. -/
def Recedes (reader : List Token → Reading) : Prop :=
  ∀ tokens, Reading.rest (reader tokens) <:+ tokens

namespace Recedes

variable {reader : List Token → Reading} {tokens : List Token}

theorem of_ok (recedes : Recedes reader) {parsed : Parsed} (read : reader tokens = .ok parsed) :
    parsed.rest <:+ tokens := by
  have leaves := recedes tokens
  rwa [read] at leaves

theorem of_error (recedes : Recedes reader) {rejection : Rejection}
    (refused : reader tokens = .error rejection) : rejection.rest <:+ tokens := by
  have leaves := recedes tokens
  rwa [refused] at leaves

end Recedes

@[simp] theorem within_rest (limit : Nat) (parsed : Parsed) :
    Reading.rest (parsed.within limit) = parsed.rest := by
  unfold Parsed.within
  split
  · rfl
  · rfl

theorem chainFrom_recedes {limit : Nat} {level : Level} {reader : List Token → Reading}
    (recedes : Recedes reader) (left : Parsed) :
    Reading.rest (chainFrom limit level reader left) <:+ left.rest := by
  fun_induction chainFrom limit level reader left with
  | case1 left => exact List.suffix_rfl
  | case2 left operator rest next _ rejection refused =>
      rw [next]
      exact (recedes.of_error refused).trans (List.suffix_cons operator rest)
  | case3 left operator rest next _ right read _ ih =>
      rw [next]
      have leaves : right.rest <:+ rest := recedes.of_ok read
      exact (ih.trans leaves).trans (List.suffix_cons operator rest)
  | case4 left operator rest next _ right read =>
      rw [next]
      exact (recedes.of_ok read).trans (List.suffix_cons operator rest)
  | case5 left => exact List.suffix_rfl

theorem chain_recedes {limit : Nat} {level : Level} {reader : List Token → Reading}
    (recedes : Recedes reader) : Recedes (chain limit level reader) := by
  intro tokens
  unfold chain
  split
  · rename_i rejection refused
    exact recedes.of_error refused
  · rename_i left read
    exact (chainFrom_recedes recedes left).trans (recedes.of_ok read)

theorem expression_recedes {limit : Nat} {reader : List Token → Reading}
    (recedes : Recedes reader) : Recedes (expression limit reader) :=
  chain_recedes (chain_recedes (chain_recedes (chain_recedes recedes)))

theorem closeGroup_recedes (limit : Nat) (inner : Parsed) :
    Reading.rest (closeGroup limit inner) <:+ inner.rest := by
  unfold closeGroup
  split
  · rename_i isNil
    rw [isNil]
    exact List.suffix_rfl
  · rename_i token rest next
    rw [next]
    split
    · rw [within_rest]
      exact List.suffix_cons token rest
    · exact List.suffix_rfl

theorem readLiteral_recedes (token : Token) (rest : List Token) :
    Reading.rest (readLiteral token rest) <:+ token :: rest := by
  unfold readLiteral
  split
  · exact List.suffix_cons token rest
  · exact List.suffix_rfl

theorem operand_recedes (limit room : Nat) : Recedes (operand limit room) := by
  induction room with
  | zero =>
      intro tokens
      cases tokens with
      | nil => exact List.suffix_rfl
      | cons token rest =>
          simp only [operand]
          split
          · exact List.suffix_cons token rest
          · exact readLiteral_recedes token rest
  | succ room ih =>
      intro tokens
      cases tokens with
      | nil => exact List.suffix_rfl
      | cons token rest =>
          have behind := List.suffix_cons token rest
          have inside : Recedes (expression limit (operand limit room)) := expression_recedes ih
          simp only [operand]
          split
          · split
            · rename_i rejection refused
              exact (ih.of_error refused).trans behind
            · rename_i inner read
              rw [within_rest]
              exact (ih.of_ok read).trans behind
          · split
            · split
              · rename_i rejection refused
                exact (inside.of_error refused).trans behind
              · rename_i inner read
                exact ((closeGroup_recedes limit inner).trans (inside.of_ok read)).trans behind
            · exact readLiteral_recedes token rest

theorem readWithin_recedes (limit : Nat) : Recedes (readWithin limit) :=
  expression_recedes (operand_recedes limit limit)

end Grammar

theorem Derives.operators_subset {phrase : Phrase} {tokens : List Token} {expr : Expr}
    (derivation : Derives phrase tokens expr) : expr.operators ⊆ tokens := by
  induction derivation with
  | single _ ih | primary _ ih => exact ih
  | joined _ _ _ ihBefore ihBehind =>
      exact List.append_subset.mpr ⟨List.subset_append_of_subset_left _ ihBefore,
        List.subset_append_of_subset_right _ (List.cons_subset_cons _ ihBehind)⟩
  | unary _ _ ih => exact List.cons_subset_cons _ ih
  | group _ _ _ ih =>
      exact List.subset_cons_of_subset _ (List.subset_append_of_subset_left _ ih)
  | literal => exact List.nil_subset _

namespace TokenStream

theorem exists_token_of_parse_error {stream : TokenStream} {diagnostic : Diagnostic}
    (refused : stream.parse = .error diagnostic) :
    ∃ token ∈ stream.toTokens, diagnostic.line = token.line := by
  unfold parse at refused
  split at refused
  · cases refused
  · rename_i rejection rejects
    cases refused
    refine ⟨stream.current rejection.rest, ?_, rfl⟩
    have leaves := (Grammar.readWithin_recedes Grammar.maxHeight).of_error rejects
    unfold current toTokens
    cases isRest : rejection.rest with
    | nil => simp
    | cons token rest =>
        have unread : token ∈ stream.unread := leaves.mem (isRest ▸ List.mem_cons_self)
        exact List.mem_append_left _ unread

theorem operators_subset_of_parse {stream : TokenStream} {expr : Expr}
    (parses : stream.parse = .ok expr) : expr.operators ⊆ stream.toTokens := by
  obtain ⟨used, begins, derivation⟩ := exists_derives_of_parse parses
  have inTree := List.Subset.trans derivation.operators_subset begins.subset
  exact List.subset_append_of_subset_left _ inTree

end TokenStream

end Reckoner
