import Reckoner.Proofs.Evaluation.Typing
import Reckoner.Proofs.Grammar.ReadBack
import Reckoner.Proofs.Number.Distinct
import Reckoner.Proofs.Source.Numeral

/-! # Unique reading

What is printed for a tree tells the tree, if its leaves are no strings. The words in it end at
the first space or closing parenthesis, so the printed text falls apart in only one way: a leaf is
a word that opens no parenthesis, and behind an opening one stand the word `group` or an operator
and then the operands. A unary operator and a binary one of the same spelling are told apart by
what stands behind the first operand.
-/

namespace Reckoner

namespace Value

/-- The values that tokens stand for outside of strings. -/
def Unquoted : Value → Prop
  | .number n => n.Unsigned
  | .text _ => False
  | .bool _ | .nil => True

/-- The value that is printed so. -/
def ofDisplay (text : String) : Value :=
  match Keyword.ofText? text with
  | some .trueWord => .bool true
  | some .falseWord => .bool false
  | some _ => .nil
  | none => .number (Number.ofText text)

end Value

theorem Number.Unsigned.ofText?_eq_none {n : Number} (unsigned : n.Unsigned) :
    Keyword.ofText? n.text = none := by
  apply List.find?_eq_none.mpr
  intro word _ same
  have isText : word.text = n.text := by simpa using same
  obtain rfl | ⟨m, rfl⟩ := unsigned
  · cases word <;> revert isText <;> decide
  · have lexeme := (Number.text_positive m).1
    rw [← isText] at lexeme
    cases lexeme.role_unique word.lexeme_text

namespace Value.Unquoted

variable {value value' : Value}

theorem ofDisplay_display (unquoted : value.Unquoted) : ofDisplay value.display = value := by
  cases value with
  | number n =>
      have noWord : Keyword.ofText? n.text = none := Number.Unsigned.ofText?_eq_none unquoted
      simp [ofDisplay, display, noWord, Number.Unsigned.ofText_text unquoted]
  | text s => cases unquoted
  | bool b => cases b <;> rfl
  | nil => rfl

theorem display_inj (unquoted : value.Unquoted) (unquoted' : value'.Unquoted)
    (same : value.display = value'.display) : value = value' := by
  rw [← unquoted.ofDisplay_display, same, unquoted'.ofDisplay_display]

theorem lexeme (unquoted : value.Unquoted) :
    Lexeme .word value.display.toList ∨ Lexeme .number value.display.toList := by
  cases value with
  | number n => exact Number.Unsigned.lexeme unquoted
  | text s => cases unquoted
  | bool b =>
      cases b with
      | true => exact .inl Keyword.trueWord.lexeme_text
      | false => exact .inl Keyword.falseWord.lexeme_text
  | nil => exact .inl Keyword.nilWord.lexeme_text

theorem display_ne_nil (unquoted : value.Unquoted) : value.display.toList ≠ [] :=
  unquoted.lexeme.elim Lexeme.ne_nil Lexeme.ne_nil

end Value.Unquoted

/-- Neither a space nor a parenthesis. -/
def inWord (c : Char) : Bool := c != ' ' && c != '(' && c != ')'

theorem inWord_of_le {c : Char} (le : '0'.toNat ≤ c.toNat) : inWord c = true := by
  have ne (d : Char) (less : d.toNat < '0'.toNat) : c ≠ d := by
    rintro rfl
    exact absurd le (Nat.not_le.mpr less)
  simp [inWord, ne ' ' (by decide), ne '(' (by decide), ne ')' (by decide)]

theorem IsDigits.inWord {digits : List Char} (isDigits : IsDigits digits) :
    ∀ c ∈ digits, inWord c = true :=
  fun c member => inWord_of_le (isDigits.2 c member).1

theorem Lexeme.inWord_of_word {text : List Char} (lexeme : Lexeme .word text) :
    ∀ c ∈ text, inWord c = true := by
  cases lexeme with
  | word letter parts =>
      refine List.forall_mem_cons.mpr ⟨inWord_of_le (le_of_isLetter letter), fun c member => ?_⟩
      obtain isLetter | isDigit := parts c member
      · exact inWord_of_le (le_of_isLetter isLetter)
      · exact inWord_of_le isDigit.1

theorem Lexeme.inWord_of_number {text : List Char} (lexeme : Lexeme .number text) :
    ∀ c ∈ text, inWord c = true := by
  cases lexeme with
  | whole digits => exact digits.inWord
  | decimal digits places =>
      have point : inWord '.' = true := by decide
      exact List.forall_mem_append.mpr
        ⟨digits.inWord, List.forall_mem_cons.mpr ⟨point, places.inWord⟩⟩

theorem Value.Unquoted.inWord {value : Value} (unquoted : value.Unquoted) :
    ∀ c ∈ value.display.toList, inWord c = true :=
  unquoted.lexeme.elim Lexeme.inWord_of_word Lexeme.inWord_of_number

namespace Token.Canonical

variable {token token' : Token}

theorem no_space (canonical : token.Canonical) : ∀ c ∈ token.lexeme.toList, (c != ' ') = true := by
  intro c member
  apply bne_iff_ne.mpr
  rintro rfl
  have space : isSeparator ' ' = true := by decide
  have noOperator := (Lexeme.operator canonical.1).role_of_separator space member
  simp at noOperator

theorem unplaced_inj (canonical : token.Canonical) (canonical' : token'.Canonical)
    (same : token.lexeme.toList = token'.lexeme.toList) : token.unplaced = token'.unplaced := by
  have kind := (mem_operatorSpellings_iff _ _).mp canonical.1
  have kind' := (mem_operatorSpellings_iff _ _).mp canonical'.1
  rw [same, kind'] at kind
  refine (unplaced_eq_iff _ _).mpr ⟨(Option.some.inj kind).symm, String.toList_inj.mp same, ?_⟩
  rw [canonical.2, canonical'.2]

theorem ne_group (canonical : token.Canonical) : token.lexeme.toList ≠ "group".toList := by
  intro same
  have kind := (mem_operatorSpellings_iff _ _).mp canonical.1
  rw [same] at kind
  cases kind

end Token.Canonical

namespace Expr

/-- A tree of operators as they are spelled and of leaves that are no strings. -/
def Plain : Expr → Prop
  | .literal value => value.Unquoted
  | .group inner => inner.Plain
  | .unary operator operand => operator.Canonical ∧ operand.Plain
  | .binary left operator right => left.Plain ∧ operator.Canonical ∧ right.Plain

/-- The word behind the opening parenthesis, if the tree is printed with one. -/
def head? : Expr → Option (List Char)
  | .literal _ => none
  | .group _ => some "group".toList
  | .unary operator _ | .binary _ operator _ => some operator.lexeme.toList

/-- What is printed for the tree, with more text behind it. -/
def printed (expr : Expr) (rest : List Char) : List Char := expr.display.toList ++ rest

/-- What is printed for operands, and the parenthesis that closes them, with more text behind. -/
def printedOperands : List Expr → List Char → List Char
  | [], rest => ')' :: rest
  | operand :: others, rest => ' ' :: operand.printed (printedOperands others rest)

/-- The text does not go on a word in front of it. -/
def EndsWord (text : List Char) : Prop := ∀ c ∈ text.head?, inWord c = false

/-- Printed at the beginning of a text, the trees differ in more than lines only if the texts
    differ. -/
def ToldApart (expr expr' : Expr) : Prop :=
  ∀ rest rest', EndsWord rest → EndsWord rest' → expr.printed rest = expr'.printed rest' →
    expr.unplaced = expr'.unplaced ∧ rest = rest'

@[elab_as_elim]
theorem induction_operands {motive : Expr → Prop}
    (node : ∀ expr : Expr, (∀ operand ∈ expr.operands, motive operand) → motive expr)
    (expr : Expr) : motive expr := by
  induction expr with
  | literal value => exact node _ (by simp [operands])
  | group inner ih => exact node _ (by simpa [operands] using ih)
  | unary operator operand ih => exact node _ (by simpa [operands] using ih)
  | binary left operator right ihLeft ihRight =>
      exact node _ (by simpa [operands] using ⟨ihLeft, ihRight⟩)

variable {expr expr' : Expr} {head : List Char}

theorem Plain.of_mem_operands (plain : expr.Plain) : ∀ operand ∈ expr.operands, operand.Plain := by
  cases expr with
  | literal => simp [operands]
  | group inner => simpa [operands, Plain] using plain
  | unary operator operand => simpa [operands] using plain.2
  | binary left operator right => simpa [operands] using ⟨plain.1, plain.2.2⟩

theorem exists_literal (noHead : expr.head? = none) : ∃ value, expr = .literal value := by
  cases expr with
  | literal value => exact ⟨value, rfl⟩
  | group | unary | binary => cases noHead

theorem printed_eq (isHead : expr.head? = some head) (rest : List Char) :
    expr.printed rest = '(' :: (head ++ printedOperands expr.operands rest) := by
  cases expr with
  | literal => cases isHead
  | group | unary | binary =>
      obtain rfl := Option.some.inj isHead
      simp [printed, display, operands, printedOperands]

theorem Plain.run_head (plain : expr.Plain) (isHead : expr.head? = some head)
    (rest : List Char) :
    Run (fun c => c != ' ') head (printedOperands expr.operands rest) := by
  cases expr with
  | literal => cases isHead
  | group inner =>
      obtain rfl := Option.some.inj isHead
      have noSpace : "group".toList.all (fun c => c != ' ') = true := by decide
      exact ⟨List.all_eq_true.mp noSpace, by simp [operands, printedOperands]⟩
  | unary operator operand =>
      obtain rfl := Option.some.inj isHead
      exact ⟨plain.1.no_space, by simp [operands, printedOperands]⟩
  | binary left operator right =>
      obtain rfl := Option.some.inj isHead
      exact ⟨plain.2.1.no_space, by simp [operands, printedOperands]⟩

theorem printed_literal_ne {value : Value} (unquoted : value.Unquoted) (rest behind : List Char) :
    (literal value).printed rest ≠ '(' :: behind := by
  intro same
  obtain ⟨c, others, isText⟩ := List.exists_cons_of_ne_nil unquoted.display_ne_nil
  have belongs := unquoted.inWord c (by simp [isText])
  rw [printed, display, isText] at same
  obtain rfl : c = '(' := (List.cons.inj same).1
  exact absurd belongs (by decide)

/-- A compound tree is told by its head and its operands. Their number tells a unary operator from
    a binary one. -/
theorem Plain.unplaced_eq (plain : expr.Plain) (plain' : expr'.Plain)
    (isHead : expr.head? = some head) (isHead' : expr'.head? = some head)
    (same : expr.operands.map unplaced = expr'.operands.map unplaced) :
    expr.unplaced = expr'.unplaced := by
  have sameHead := isHead.trans isHead'.symm
  cases expr with
  | literal => cases isHead
  | group inner =>
      cases expr' with
      | group inner' => simpa [operands, unplaced] using same
      | unary operator' operand' =>
          exact absurd (Option.some.inj sameHead).symm plain'.1.ne_group
      | literal | binary => simp [operands] at same
  | unary operator operand =>
      cases expr' with
      | group inner' => exact absurd (Option.some.inj sameHead) plain.1.ne_group
      | unary operator' operand' =>
          have sameOperator := plain.1.unplaced_inj plain'.1 (Option.some.inj sameHead)
          simpa [operands, unplaced, sameOperator] using same
      | literal | binary => simp [operands] at same
  | binary left operator right =>
      cases expr' with
      | binary left' operator' right' =>
          have sameOperator := plain.2.1.unplaced_inj plain'.2.1 (Option.some.inj sameHead)
          simpa [operands, unplaced, sameOperator] using same
      | literal | group | unary => simp [operands] at same

theorem endsWord_printedOperands (operands : List Expr) (rest : List Char) :
    EndsWord (printedOperands operands rest) := by
  cases operands <;> simp [EndsWord, printedOperands, inWord]

theorem printedOperands_inj {operands operands' : List Expr} {rest rest' : List Char}
    (apart : ∀ operand ∈ operands, ∀ operand' ∈ operands', operand.ToldApart operand')
    (same : printedOperands operands rest = printedOperands operands' rest') :
    operands.map unplaced = operands'.map unplaced ∧ rest = rest' := by
  induction operands generalizing operands' with
  | nil =>
      cases operands' with
      | nil => exact ⟨rfl, (List.cons.inj same).2⟩
      | cons => simp [printedOperands] at same
  | cons operand others ih =>
      cases operands' with
      | nil => simp [printedOperands] at same
      | cons operand' others' =>
          obtain ⟨sameOperand, sameOthers⟩ :=
            apart operand (by simp) operand' (by simp) _ _ (endsWord_printedOperands _ _)
              (endsWord_printedOperands _ _) (List.cons.inj same).2
          obtain ⟨sameTail, sameRest⟩ := ih (fun e member e' member' =>
            apart e (by simp [member]) e' (by simp [member'])) sameOthers
          exact ⟨by simp [sameOperand, sameTail], sameRest⟩

theorem Plain.toldApart (plain : expr.Plain) (plain' : expr'.Plain) : expr.ToldApart expr' := by
  -- By induction over the parts of the first tree. A leaf is a word up to where the text ends it,
  -- and all other trees open a parenthesis.
  induction expr using induction_operands generalizing expr' with
  | node expr ih =>
      intro rest rest' ends ends' same
      cases isHead : expr.head? with
      | none =>
          obtain ⟨value, rfl⟩ := exists_literal isHead
          cases isHead' : expr'.head? with
          | none =>
              obtain ⟨value', rfl⟩ := exists_literal isHead'
              have isRun : Run inWord value.display.toList rest := ⟨plain.inWord, ends⟩
              have isRun' : Run inWord value'.display.toList rest' := ⟨plain'.inWord, ends'⟩
              obtain ⟨sameText, sameRest⟩ := isRun.unique isRun' same
              have sameValue := plain.display_inj plain' (String.toList_inj.mp sameText)
              exact ⟨congrArg literal sameValue, sameRest⟩
          | some head' =>
              exact absurd (same.trans (printed_eq isHead' _)) (printed_literal_ne plain _ _)
      | some head =>
          cases isHead' : expr'.head? with
          | none =>
              obtain ⟨value', rfl⟩ := exists_literal isHead'
              exact absurd (same.symm.trans (printed_eq isHead _)) (printed_literal_ne plain' _ _)
          | some head' =>
              rw [printed_eq isHead, printed_eq isHead'] at same
              obtain ⟨rfl, sameBehind⟩ := (plain.run_head isHead rest).unique
                (plain'.run_head isHead' rest') (List.cons.inj same).2
              have apart : ∀ operand ∈ expr.operands, ∀ operand' ∈ expr'.operands,
                  operand.ToldApart operand' := fun operand member operand' member' =>
                ih operand member (plain.of_mem_operands operand member)
                  (plain'.of_mem_operands operand' member')
              obtain ⟨sameOperands, sameRest⟩ := printedOperands_inj apart sameBehind
              exact ⟨plain.unplaced_eq plain' isHead isHead' sameOperands, sameRest⟩

@[simp] theorem display_unplaced (expr : Expr) : expr.unplaced.display = expr.display := by
  induction expr with
  | literal => rfl
  | group inner ih => simp only [unplaced, display, ih]
  | unary operator operand ih => simp only [unplaced, display, ih, Token.unplaced]
  | binary left operator right ihLeft ihRight =>
      simp only [unplaced, display, ihLeft, ihRight, Token.unplaced]

theorem Plain.display_eq_iff (plain : expr.Plain) (plain' : expr'.Plain) :
    expr.display = expr'.display ↔ expr.unplaced = expr'.unplaced := by
  constructor
  · intro same
    have nothing : EndsWord [] := by simp [EndsWord]
    exact (plain.toldApart plain' [] [] nothing nothing (by simp [printed, same])).1
  · intro same
    rw [← display_unplaced, same, display_unplaced]

end Expr

/-- What a tree takes from the token is told by its spelling. -/
structure Token.Plain (token : Token) : Prop where
  operator : token.kind ∈ Kind.unaryOperators ∨ token.kind ∈ Kind.binaryOperators →
    token.Canonical
  operand : ∀ value, Terminal token value → value.Unquoted

theorem plain_of_mem {source : String} {token : Token}
    (member : token ∈ (scan source).stream.unread) (noString : token.kind ≠ .string) :
    token.Plain := by
  obtain ⟨piece, lexeme, yields⟩ := exists_yields_of_mem member
  constructor
  · intro isOperator
    cases yields with
    | operator isRole =>
        rw [isRole] at lexeme
        cases lexeme with
        | operator spelled => exact ⟨by simpa using spelled, rfl⟩
    | string | whole | decimal | keyword | identifier =>
        simp [Kind.unaryOperators, Kind.binaryOperators] at isOperator
  · intro value terminal
    cases terminal with
    | trueWord | falseWord | nilWord => trivial
    | string isString => exact absurd isString noString
    | number isNumber isLiteral =>
        obtain ⟨d, -, literal⟩ := yields.exists_denotes lexeme isNumber
        obtain rfl := Option.some.inj (isLiteral.symm.trans literal)
        exact (Number.rounds_toNumber d).not_negative

theorem Derives.plain {phrase : Phrase} {tokens : List Token} {expr : Expr}
    (derivation : Derives phrase tokens expr) (plain : ∀ token ∈ tokens, token.Plain) :
    expr.Plain := by
  induction derivation with
  | single _ ih | primary _ ih => exact ih plain
  | joined _ member _ ihBefore ihBehind =>
      obtain ⟨before, others⟩ := List.forall_mem_append.mp plain
      obtain ⟨operator, behind⟩ := List.forall_mem_cons.mp others
      have isBinary := (Kind.mem_binaryOperators_iff _).mpr ⟨_, member⟩
      exact ⟨ihBefore before, operator.operator (.inr isBinary), ihBehind behind⟩
  | unary member _ ih =>
      obtain ⟨operator, others⟩ := List.forall_mem_cons.mp plain
      exact ⟨operator.operator (.inl member), ih others⟩
  | group _ _ _ ih =>
      obtain ⟨-, others⟩ := List.forall_mem_cons.mp plain
      exact ih (List.forall_mem_append.mp others).1
  | literal terminal =>
      exact (plain _ List.mem_cons_self).operand _ terminal

theorem plain_of_parse {source : String} {expr : Expr}
    (noString : ∀ token ∈ (scan source).stream.toTokens, token.kind ≠ .string)
    (parses : (scan source).stream.parse = .ok expr) : expr.Plain := by
  obtain ⟨used, begins, derivation⟩ := TokenStream.exists_derives_of_parse parses
  apply derivation.plain
  intro token inUsed
  have cut : token ∈ (scan source).stream.unread := begins.mem inUsed
  exact plain_of_mem cut (noString token (List.mem_append_left _ cut))

/-- Two sources without strings that are parsed to trees have the same tree printed for them
    exactly if the trees are the same but for the lines of the operators. -/
theorem display_is_unambiguous (source source' : String) (expr expr' : Expr)
    (noString : ∀ token ∈ (scan source).stream.toTokens, token.kind ≠ .string)
    (noString' : ∀ token ∈ (scan source').stream.toTokens, token.kind ≠ .string)
    (parses : (scan source).stream.parse = .ok expr)
    (parses' : (scan source').stream.parse = .ok expr') :
    expr.display = expr'.display ↔ expr.unplaced = expr'.unplaced :=
  (plain_of_parse noString parses).display_eq_iff (plain_of_parse noString' parses')

/-- Both minus signs, a group, and numbers that are spelled in two ways. -/
theorem display_is_unambiguous_respelled :
    let one : Expr := .literal (.number (.finite .positive ⟨1023 * binade, by decide⟩))
    let tree (line : ℕ) : Expr := .binary one ⟨.minus, "-", none, 1⟩
      (.group (.unary ⟨.minus, "-", none, line⟩ one))
    ((∀ token ∈ (scan "1 - (-1)").stream.toTokens, token.kind ≠ .string) ∧
      (∀ token ∈ (scan "01 -(\n- 1.0)").stream.toTokens, token.kind ≠ .string) ∧
      (scan "1 - (-1)").stream.parse = .ok (tree 1) ∧
      (scan "01 -(\n- 1.0)").stream.parse = .ok (tree 2)) ∧
    ((tree 1).display = (tree 2).display ↔ (tree 1).unplaced = (tree 2).unplaced) := by
  intro one tree
  have noString : ∀ token ∈ (scan "1 - (-1)").stream.toTokens, token.kind ≠ .string := by
    decide +kernel
  have noString' : ∀ token ∈ (scan "01 -(\n- 1.0)").stream.toTokens, token.kind ≠ .string := by
    decide +kernel
  have parses : (scan "1 - (-1)").stream.parse = .ok (tree 1) := by decide +kernel
  have parses' : (scan "01 -(\n- 1.0)").stream.parse = .ok (tree 2) := by decide +kernel
  exact ⟨⟨noString, noString', parses, parses'⟩,
    display_is_unambiguous _ _ (tree 1) (tree 2) noString noString' parses parses'⟩

/-- Strings are printed as they are, so they can be taken for other values. -/
example : (Expr.literal (.text "nil")).display = (Expr.literal .nil).display := rfl

end Reckoner
