import Reckoner.Proofs.Grammar.Reading

/-! # Accepted tokens

Parsing a list of tokens from any place in it gives exactly the expressions that the grammar
derives from there up to a token that does not go on the expression, as long as they are low
enough. There is at most one of them, and parsing stops right behind it.
-/

namespace Reckoner

/-- The tokens, with an end token behind them unless they end with one. It stands on the
    line of the last token. -/
def Token.closed (tokens : List Token) : List Token :=
  if tokens.getLast?.map Token.kind = some .endOfInput then tokens
  else tokens ++ [.endOfInput (tokens.getLast?.elim 1 Token.line)]

/-- The tokens at `start` and from there on, the one at `stop` excluded, are an expression of
    lawful height, which the one at `stop` does not go on. -/
structure Accepted (tokens : List Token) (start : Nat) (expr : Expr) (stop : Nat) : Prop where
  derives : Derives (.joined .equality) (tokens.extract start stop) expr
  ends : ∃ next, tokens[stop]? = some next ∧ next.kind ∉ Kind.binaryOperators
  low : expr.height ≤ 128

theorem Derives.tokens_ne_nil {phrase : Phrase} {tokens : List Token} {expr : Expr}
    (derivation : Derives phrase tokens expr) : tokens ≠ [] := by
  induction derivation with
  | single _ ih | primary _ ih => exact ih
  | joined | unary | group | literal => simp

namespace TokenStream

/-- The stream with so many of its tokens read. -/
def skip (stream : TokenStream) (count : Nat) : TokenStream :=
  { stream with unread := stream.unread.drop count }

/-- Parsing from the token at `start` gives the expression and stops at the token at `stop`. -/
def ParsesTo (stream : TokenStream) (start : Nat) (expr : Expr) (stop : Nat) : Prop :=
  (stream.skip start).parse = .ok expr ∧ stop ≤ stream.unread.length ∧
    ∃ height, Grammar.readWithin Grammar.maxHeight (stream.skip start).unread =
      .ok ⟨expr, height, (stream.skip stop).unread⟩

@[simp] theorem toTokens_ofTokens (tokens : List Token) :
    (ofTokens tokens).toTokens = Token.closed tokens := by
  unfold ofTokens Token.closed
  cases last : tokens.getLast? with
  | none =>
      obtain rfl := List.getLast?_eq_none_iff.mp last
      rfl
  | some token =>
      obtain ⟨front, rfl⟩ := List.getLast?_eq_some_iff.mp last
      by_cases isEnd : token.kind = .endOfInput <;> simp [toTokens, isEnd]

@[simp] theorem final_ofTokens (tokens : List Token) :
    (ofTokens tokens).final.kind = .endOfInput := by
  unfold ofTokens
  split
  · rfl
  · split
    · assumption
    · rfl

theorem parse_eq_ok_iff (stream : TokenStream) (expr : Expr) :
    stream.parse = .ok expr ↔ ∃ height rest,
      Grammar.readWithin Grammar.maxHeight stream.unread = .ok ⟨expr, height, rest⟩ := by
  unfold parse
  split
  · rename_i parsed read
    simp only [read, Except.ok.injEq]
    exact ⟨fun same => ⟨parsed.height, parsed.rest, by rw [← same]⟩,
      fun ⟨height, rest, same⟩ => by rw [same]⟩
  · rename_i rejection read
    simp [read]

theorem exists_derives_of_parse {stream : TokenStream} {expr : Expr}
    (parses : stream.parse = .ok expr) :
    ∃ used, used <+: stream.unread ∧ Derives (.joined .equality) used expr := by
  obtain ⟨height, rest, read⟩ := (parse_eq_ok_iff _ _).mp parses
  obtain ⟨used, parts, derivation⟩ := (Grammar.readWithin_sound (by decide) _ _ read).1.derived
  exact ⟨used, ⟨rest, parts.symm⟩, derivation⟩

theorem getElem?_toTokens {stream : TokenStream} {stop : Nat}
    (inside : stop ≤ stream.unread.length) :
    stream.toTokens[stop]? = some ((stream.unread.drop stop).headD stream.final) := by
  unfold toTokens
  by_cases unread : stop < stream.unread.length
  · rw [List.getElem?_append_left unread, List.drop_eq_getElem_cons unread, List.headD_cons,
      List.getElem?_eq_getElem unread]
  · obtain rfl : stop = stream.unread.length := by omega
    simp

theorem extract_toTokens {stream : TokenStream} {start stop : Nat} (order : start ≤ stop)
    (inside : stop ≤ stream.unread.length) :
    stream.toTokens.extract start stop ++ stream.unread.drop stop = stream.unread.drop start := by
  have front : (stream.toTokens.drop start).take (stop - start) =
      (stream.unread.drop start).take (stop - start) := by
    unfold toTokens
    rw [List.drop_append_of_le_length (by omega), List.take_append_of_le_length (by simp; omega)]
  have back : stream.unread.drop stop = (stream.unread.drop start).drop (stop - start) := by
    rw [List.drop_drop, Nat.add_sub_cancel' order]
  rw [List.extract, front, back, List.take_append_drop]

theorem endsBefore_iff {stream : TokenStream} (closed : stream.final.kind = .endOfInput)
    {stop : Nat} (inside : stop ≤ stream.unread.length) :
    (Phrase.joined .equality).EndsBefore (stream.unread.drop stop) ↔
      ∃ next, stream.toTokens[stop]? = some next ∧ next.kind ∉ Kind.binaryOperators := by
  rw [getElem?_toTokens inside]
  cases stream.unread.drop stop with
  | nil => simp [Phrase.EndsBefore, closed, Kind.binaryOperators]
  | cons token rest => simp [Phrase.EndsBefore, Phrase.continuations]

theorem parsesTo_of_accepted {stream : TokenStream} (closed : stream.final.kind = .endOfInput)
    {start stop : Nat} {expr : Expr} (accepted : Accepted stream.toTokens start expr stop) :
    stream.ParsesTo start expr stop := by
  obtain ⟨next, isNext, _⟩ := accepted.ends
  have inside : stop ≤ stream.unread.length := by
    have := (List.getElem?_eq_some_iff.mp isNext).1
    simp only [toTokens, List.length_append, List.length_singleton] at this
    omega
  have order : start ≤ stop := by
    have := accepted.derives.tokens_ne_nil
    simp only [ne_eq, List.extract, List.take_eq_nil_iff, not_or] at this
    omega
  have low : expr.height ≤ Grammar.maxHeight := accepted.low
  have leads := accepted.derives.leads low Grammar.maxHeight (by omega)
  have read := leads.read_eq ((endsBefore_iff closed inside).mpr accepted.ends)
  rw [extract_toTokens order inside] at read
  exact ⟨(parse_eq_ok_iff _ _).mpr ⟨_, _, read⟩, inside, _, read⟩

theorem accepted_of_parsesTo {stream : TokenStream} (closed : stream.final.kind = .endOfInput)
    {start stop : Nat} {expr : Expr} (parses : stream.ParsesTo start expr stop) :
    Accepted stream.toTokens start expr stop := by
  obtain ⟨_, inside, height, read⟩ := parses
  obtain ⟨⟨⟨used, parts, derivation⟩, height_eq, height_le⟩, ends⟩ :=
    Grammar.readWithin_sound (by decide) _ _ read
  have lengths := congrArg List.length parts
  simp only [skip, List.length_append, List.length_drop] at lengths
  have nonempty := List.length_pos_iff.mpr derivation.tokens_ne_nil
  have split := extract_toTokens (show start ≤ stop by omega) inside
  have same : used = stream.toTokens.extract start stop :=
    List.append_cancel_right (parts.symm.trans split.symm)
  exact ⟨same ▸ derivation, (endsBefore_iff closed inside).mp ends, height_eq ▸ height_le⟩

theorem parsesTo_of_parse {stream : TokenStream} {start : Nat} {expr : Expr}
    (parses : (stream.skip start).parse = .ok expr) : ∃ stop, stream.ParsesTo start expr stop := by
  obtain ⟨height, rest, read⟩ := (parse_eq_ok_iff _ _).mp parses
  obtain ⟨used, parts, _⟩ := (Grammar.readWithin_sound (by decide) _ _ read).1.derived
  have suffix : rest <:+ stream.unread :=
    List.IsSuffix.trans ⟨used, parts.symm⟩ (List.drop_suffix start stream.unread)
  refine ⟨stream.unread.length - rest.length, parses, Nat.sub_le _ _, height, ?_⟩
  rw [read, skip, ← List.suffix_iff_eq_drop.mp suffix]

theorem parsesTo_unique {stream : TokenStream} {start stop stop' : Nat} {expr expr' : Expr}
    (one : stream.ParsesTo start expr stop) (other : stream.ParsesTo start expr' stop') :
    expr = expr' ∧ stop = stop' := by
  obtain ⟨_, inside, height, read⟩ := one
  obtain ⟨_, inside', height', read'⟩ := other
  have same := Except.ok.inj (read.symm.trans read')
  injection same with exprs _ rests
  have lengths := congrArg List.length rests
  simp only [skip, List.length_drop] at lengths
  exact ⟨exprs, by omega⟩

/-- Parsing from any place of any tokens finds exactly what the grammar derives there within
    the height limit, and stops right behind it. The grammar leaves no choice. -/
theorem parsesTo_iff_accepted (tokens : List Token) (start : Nat) :
    (∀ expr stop, (ofTokens tokens).ParsesTo start expr stop ↔
        Accepted (Token.closed tokens) start expr stop) ∧
      (∀ expr, ((ofTokens tokens).skip start).parse = .ok expr ↔
        ∃ stop, (ofTokens tokens).ParsesTo start expr stop) ∧
      ∀ expr stop expr' stop', Accepted (Token.closed tokens) start expr stop →
        Accepted (Token.closed tokens) start expr' stop' → expr = expr' ∧ stop = stop' := by
  have closed := final_ofTokens tokens
  rw [← toTokens_ofTokens]
  refine ⟨fun expr stop => ⟨accepted_of_parsesTo closed, parsesTo_of_accepted closed⟩,
    fun expr => ⟨parsesTo_of_parse, fun ⟨_, parses⟩ => parses.1⟩, ?_⟩
  intro expr stop expr' stop' one other
  exact parsesTo_unique (parsesTo_of_accepted closed one) (parsesTo_of_accepted closed other)

end TokenStream

end Reckoner
