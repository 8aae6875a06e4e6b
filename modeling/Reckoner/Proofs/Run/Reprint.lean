import Reckoner.Proofs.Grammar.ReadBack
import Reckoner.Proofs.Run.Ending

/-! # Printed values

What is printed for a number, a truth value or `nil` is a source again, and running it prints
the same. A negative number is printed with a minus sign, which is read as an operator on the
number without it; the negative zero is printed without one.
-/

namespace Reckoner

theorem Split.exists_line {token : Token} (spelled : token.Spelled) (before : List Char) :
    ∃ pieces, Split before (token.lexeme.toList ++ ['\n']) pieces ∧
      pieces.filterMap Piece.diagnostic? = [] ∧
      (pieces.filterMap Piece.token?).map Token.unplaced = [token.unplaced] := by
  have lineBreak : isSeparator '\n' = true := by decide
  have rest : Split (before ++ token.lexeme.toList) ['\n'] _ := .separator lineBreak .nil
  obtain ⟨piece, split, clean, gives⟩ := spelled.exists_split (by simp) rest
  obtain ⟨found, isFound, same⟩ := Option.map_eq_some_iff.mp gives
  refine ⟨_, split, ?_, ?_⟩
  · rw [List.filterMap_cons_none clean, List.filterMap_cons_none rfl, List.filterMap_nil]
  · rw [List.filterMap_cons_some isFound, List.filterMap_cons_none rfl, List.filterMap_nil,
      List.map_singleton, same]

theorem Split.minus {before rest : List Char} {pieces : List Piece}
    (split : Split (before ++ ['-']) rest pieces) :
    Split before ('-' :: rest) (⟨1 + before.count '\n', .operator .minus, ['-']⟩ :: pieces) :=
  .cons rfl (List.cons_ne_nil _ _) (Extent.ofText_cuts '-' rest) split

theorem scan_line {token : Token} (spelled : token.Spelled) :
    (scan (token.lexeme ++ "\n")).diagnostics = [] ∧
      ∃ read, (scan (token.lexeme ++ "\n")).stream.unread = [read] ∧
        read.unplaced = token.unplaced := by
  obtain ⟨cut, split, clean, gives⟩ := Split.exists_line spelled []
  have isSource : (token.lexeme ++ "\n").toList = token.lexeme.toList ++ ['\n'] := by simp
  rw [← isSource] at split
  rw [split.scan_eq]
  exact ⟨clean, List.map_eq_singleton_iff.mp gives⟩

theorem scan_minus_line {token : Token} (spelled : token.Spelled) :
    (scan ("-" ++ token.lexeme ++ "\n")).diagnostics = [] ∧
      ∃ minus read, (scan ("-" ++ token.lexeme ++ "\n")).stream.unread = [minus, read] ∧
        minus.kind = .minus ∧ read.unplaced = token.unplaced := by
  obtain ⟨cut, split, clean, gives⟩ := Split.exists_line spelled ['-']
  have isSource :
      ("-" ++ token.lexeme ++ "\n").toList = '-' :: (token.lexeme.toList ++ ['\n']) := by
    simp
  have whole := @Split.minus [] _ _ split
  rw [← isSource] at whole
  rw [whole.scan_eq]
  obtain ⟨read, isRead, same⟩ := List.map_eq_singleton_iff.mp gives
  exact ⟨clean, ⟨.minus, "-", none, 1⟩, read, congrArg (List.cons _) isRead, rfl, same⟩

theorem Log.run_of_value {source : String} {expr : Expr} {value : Value}
    (evaluates : Evaluates .empty source expr) (evaluated : expr.evaluate = .ok value) :
    Log.empty.run source = (value.display ++ "\n", .empty) := by
  rw [run_of_evaluates evaluates, evaluate, evaluated]

theorem run_literal {value : Value} (writable : value.Writable)
    (shown : value.token.lexeme = value.display) :
    Log.empty.run (value.display ++ "\n") = (value.display ++ "\n", .empty) := by
  obtain ⟨clean, read, isRead, same⟩ := scan_line writable.spelled
  rw [shown] at clean isRead
  have derivation : Derives .primary [read] (.literal value) :=
    .literal (Value.terminal_of_token same)
  rw [← isRead] at derivation
  have low : (Expr.literal value).height ≤ 128 := by simp [Expr.height]
  have parses := (derivation.loosen (Phrase.tightness_le _)).parse_eq low
  exact Log.run_of_value ⟨parses, clean, rfl⟩ rfl

theorem run_negated {n : Number} (writable : (Value.number n).Writable) :
    Log.empty.run ("-" ++ n.text ++ "\n") = ((-n).text ++ "\n", .empty) := by
  obtain ⟨clean, minus, read, isRead, isMinus, same⟩ := scan_minus_line writable.spelled
  have operand : Derives .unary [read] (.literal (.number n)) :=
    .primary (.literal (Value.terminal_of_token same))
  have derivation : Derives .unary [minus, read] (.unary minus (.literal (.number n))) :=
    .unary (isMinus ▸ by decide) operand
  rw [← isRead] at derivation
  have low : (Expr.unary minus (.literal (.number n))).height ≤ 128 := by simp [Expr.height]
  have parses := (derivation.loosen (by decide)).parse_eq low
  have negated : (Expr.unary minus (.literal (.number n))).evaluate = .ok (.number (-n)) := by
    change applyUnary minus (.number n) = _
    simp only [applyUnary, isMinus]
  exact Log.run_of_value ⟨parses, clean, rfl⟩ negated

/-- A finite number, a truth value or `nil`. -/
def Value.Plain : Value → Prop
  | .number n => ∃ sign magnitude, n = .finite sign magnitude
  | .bool _ | .nil => True
  | .text _ => False

theorem run_finite (sign : Sign) (magnitude : Magnitude) :
    let value := Value.number (.finite sign magnitude)
    Log.empty.run (value.display ++ "\n") = (value.display ++ "\n", .empty) := by
  intro value
  let size := Value.number (.finite .positive magnitude)
  have writable : size.Writable := ⟨magnitude, rfl⟩
  cases sign with
  | positive => exact @run_literal size writable rfl
  | negative =>
      by_cases zero : magnitude = .zero
      · -- Both zeros are printed alike, so this is the literal zero.
        have same : value.display = size.display := by
          simp only [value, size, Value.display, Number.text, if_pos zero]
        rw [same]
        exact @run_literal size writable rfl
      · have signed : value.display = "-" ++ (Number.finite .positive magnitude).text := by
          simp only [value, Value.display, Number.text, if_neg zero, Sign.text,
            String.empty_append]
        have negated := run_negated writable
        rw [← signed] at negated
        exact negated

/-- What is printed for a plain value is a source that prints the same. -/
theorem Value.Plain.run_display {value : Value} (plain : value.Plain) :
    Log.empty.run (value.display ++ "\n") = (value.display ++ "\n", .empty) := by
  cases value with
  | number n =>
      obtain ⟨sign, magnitude, rfl⟩ := plain
      exact run_finite sign magnitude
  | text s => exact plain.elim
  | bool b =>
      have writable : (Value.bool b).Writable := trivial
      cases b with
      | true => exact run_literal writable rfl
      | false => exact run_literal writable rfl
  | nil =>
      have writable : Value.nil.Writable := trivial
      exact run_literal writable rfl

/-- A source that gives a plain value prints a source that prints the same again, without an
    error. -/
theorem run_reprints (source : String) (expr : Expr) (value : Value)
    (evaluates : Evaluates .empty source expr) (evaluated : expr.evaluate = .ok value)
    (plain : value.Plain) :
    let printed := (Log.empty.run source).1
    printed = value.display ++ "\n" ∧ Log.empty.run printed = (printed, .empty) := by
  rw [Log.run_of_value evaluates evaluated]
  exact ⟨rfl, plain.run_display⟩

/-- The result is negative and not whole. -/
theorem run_reprints_negative :
    let one : Magnitude := ⟨1023 * binade, by decide⟩
    let sevenHalves : Magnitude := ⟨1024 * binade + 3 * (binade / 4), by decide⟩
    let fiveHalves : Magnitude := ⟨1024 * binade + binade / 4, by decide⟩
    let expr : Expr := .binary (.literal (.number (.finite .positive one)))
      ⟨.minus, "-", none, 1⟩ (.literal (.number (.finite .positive sevenHalves)))
    let value : Value := .number (.finite .negative fiveHalves)
    (Evaluates .empty "1 - 3.5" expr ∧ expr.evaluate = .ok value ∧ value.Plain) ∧
      let printed := (Log.empty.run "1 - 3.5").1
      printed = value.display ++ "\n" ∧ Log.empty.run printed = (printed, .empty) := by
  intro one sevenHalves fiveHalves expr value
  have evaluates : Evaluates .empty "1 - 3.5" expr := ⟨by decide +kernel, by decide +kernel, rfl⟩
  have evaluated : expr.evaluate = .ok value := by decide +kernel
  have plain : value.Plain := ⟨_, _, rfl⟩
  exact ⟨⟨evaluates, evaluated, plain⟩, run_reprints _ expr value evaluates evaluated plain⟩

end Reckoner
