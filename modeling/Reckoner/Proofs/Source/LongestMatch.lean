import Reckoner.Proofs.Source.Lexeme

/-! # Longest match

The first piece of a text is the longest lexeme that the text begins with. A text that begins
with no lexeme at all begins with a fault: an open string reaches to the end of the text, any
other fault is a single character. This says what the first piece is without saying how to
find it, and it is what the scanner finds.
-/

namespace Reckoner

/-- The piece is the longest lexeme that the text begins with. -/
structure Longest (text : List Char) (role : Role) (piece : List Char) : Prop where
  lexeme : Lexeme role piece
  begins : piece <+: text
  longest : ∀ role' piece', Lexeme role' piece' → piece' <+: text → piece'.length ≤ piece.length

/-- No lexeme stands at the beginning of the text. -/
def NoLexeme (text : List Char) : Prop := ∀ role piece, Lexeme role piece → ¬ piece <+: text

/-- The first piece of a text. -/
inductive FirstPiece : List Char → Role → List Char → Prop where
  | lexeme {text piece : List Char} {role : Role} :
      Longest text role piece → FirstPiece text role piece
  | unterminated {rest : List Char} : NoLexeme ('"' :: rest) →
      FirstPiece ('"' :: rest) (.fault .unterminatedString) ('"' :: rest)
  | unsupported {c : Char} {rest : List Char} : NoLexeme (c :: rest) → c ≠ '"' →
      FirstPiece (c :: rest) (.fault (.unsupported c)) [c]

namespace FirstPiece

theorem unique {text piece piece' : List Char} {role role' : Role}
    (one : FirstPiece text role piece) (other : FirstPiece text role' piece') :
    role = role' ∧ piece = piece' := by
  cases one with
  | lexeme longest =>
      cases other with
      | lexeme longest' =>
          have sameLength : piece.length = piece'.length :=
            Nat.le_antisymm (longest'.longest role piece longest.lexeme longest.begins)
              (longest.longest role' piece' longest'.lexeme longest'.begins)
          have same : piece = piece' :=
            (List.prefix_of_prefix_length_le longest.begins longest'.begins
              (Nat.le_of_eq sameLength)).eq_of_length sameLength
          subst same
          exact ⟨longest.lexeme.role_unique longest'.lexeme, rfl⟩
      | unterminated noLexeme | unsupported noLexeme _ =>
          exact absurd longest.begins (noLexeme role piece longest.lexeme)
  | unterminated noLexeme =>
      cases other with
      | lexeme longest => exact absurd longest.begins (noLexeme role' piece' longest.lexeme)
      | unterminated => exact ⟨rfl, rfl⟩
      | unsupported _ noQuote => exact absurd rfl noQuote
  | unsupported noLexeme noQuote =>
      cases other with
      | lexeme longest => exact absurd longest.begins (noLexeme role' piece' longest.lexeme)
      | unterminated => exact absurd rfl noQuote
      | unsupported => exact ⟨rfl, rfl⟩

end FirstPiece

/-- Characters of a class, and a tail that does not go on with another one. -/
structure Run (belongs : Char → Bool) (run tail : List Char) : Prop where
  all : ∀ c ∈ run, belongs c = true
  ends : ∀ c ∈ tail.head?, belongs c = false

namespace Run

variable {belongs : Char → Bool}

theorem exists_takeWhile (belongs : Char → Bool) (text : List Char) :
    ∃ run tail, text = run ++ tail ∧ text.takeWhile belongs = run ∧ Run belongs run tail := by
  refine ⟨_, text.dropWhile belongs, List.takeWhile_append_dropWhile.symm, rfl, ?_, ?_⟩
  · exact List.all_eq_true.mp List.all_takeWhile
  · intro c isHead
    have ends := List.head?_dropWhile_not belongs text
    rw [Option.mem_def.mp isHead] at ends
    exact ends

theorem of_cons {c : Char} {run tail : List Char} (isRun : Run belongs (c :: run) tail) :
    Run belongs run tail :=
  ⟨fun d member => isRun.all d (List.mem_cons_of_mem c member), isRun.ends⟩

theorem not_begins {c : Char} {run tail text : List Char} (isRun : Run belongs run tail)
    (belonging : belongs c = true) : ¬ c :: text <+: tail := by
  rintro ⟨rest, rfl⟩
  have ends := isRun.ends c rfl
  simp [belonging] at ends

theorem length_le {run tail text : List Char} (isRun : Run belongs run tail)
    (all : ∀ c ∈ text, belongs c = true) (begins : text <+: run ++ tail) :
    text.length ≤ run.length := by
  induction text generalizing run with
  | nil => exact Nat.zero_le _
  | cons c text ih =>
      cases run with
      | nil => exact absurd begins (isRun.not_begins (all c List.mem_cons_self))
      | cons d run =>
          obtain ⟨_, tailBegins⟩ := List.cons_prefix_cons.mp begins
          have shorter := ih isRun.of_cons (fun e member => all e (List.mem_cons_of_mem c member))
            tailBegins
          exact Nat.succ_le_succ shorter

theorem unique {run run' tail tail' : List Char} (isRun : Run belongs run tail)
    (isRun' : Run belongs run' tail') (same : run ++ tail = run' ++ tail') :
    run = run' ∧ tail = tail' := by
  have le := isRun'.length_le isRun.all (same ▸ List.prefix_append run tail)
  have le' := isRun.length_le isRun'.all (same ▸ List.prefix_append run' tail')
  exact List.append_inj same (Nat.le_antisymm le le')

theorem stops {run tail text behind : List Char} {stop : Char} (isRun : Run belongs run tail)
    (all : ∀ c ∈ text, belongs c = true) (isStop : belongs stop = false)
    (begins : text ++ stop :: behind <+: run ++ tail) :
    text = run ∧ ∃ rest, tail = stop :: rest ∧ behind <+: rest := by
  induction text generalizing run with
  | nil =>
      cases run with
      | nil =>
          obtain ⟨rest, rfl⟩ := begins
          exact ⟨rfl, behind ++ rest, rfl, List.prefix_append _ _⟩
      | cons d run =>
          obtain ⟨rfl, _⟩ := List.cons_prefix_cons.mp begins
          simp [isRun.all stop List.mem_cons_self] at isStop
  | cons c text ih =>
      cases run with
      | nil => exact absurd begins (isRun.not_begins (all c List.mem_cons_self))
      | cons d run =>
          obtain ⟨rfl, tailBegins⟩ := List.cons_prefix_cons.mp begins
          obtain ⟨rfl, stopped⟩ := ih isRun.of_cons
            (fun e member => all e (List.mem_cons_of_mem c member)) tailBegins
          exact ⟨rfl, stopped⟩

theorem isDigits {run tail : List Char} (isRun : Run Char.isDigit run tail)
    (nonempty : run ≠ []) : IsDigits run :=
  ⟨nonempty, fun d member => (isDigit_iff d).mp (isRun.all d member)⟩

end Run

namespace Extent

/-- The extent cuts off the first piece of the text that starts with `c`. -/
def Cuts (c : Char) (rest : List Char) (extent : Extent) : Prop :=
  FirstPiece (c :: rest) extent.role (c :: rest.take extent.more)

theorem cuts_longest {c : Char} {body tail : List Char} {role : Role}
    (longest : Longest (c :: (body ++ tail)) role (c :: body)) :
    Cuts c (body ++ tail) ⟨role, body.length⟩ := by
  simpa [Cuts] using FirstPiece.lexeme longest

theorem cuts_separator {c : Char} (member : c ∈ [' ', '\r', '\t', '\n']) (rest : List Char) :
    Cuts c rest ⟨.separator, 0⟩ := by
  refine @cuts_longest c [] rest _ ⟨.separator member, ⟨rest, rfl⟩, ?_⟩
  intro role piece lexeme begins
  have lead := lexeme.lead_of_begins begins
  rw [Lead.ofChar_separator member] at lead
  cases lexeme with
  | separator => exact Nat.le_refl _
  | operator | comment | string | whole | decimal | word => cases lead

theorem cuts_word {c : Char} (letter : IsLetter c) (rest : List Char) :
    Cuts c rest ⟨.word, (rest.takeWhile isWordPart).length⟩ := by
  obtain ⟨run, tail, rfl, taken, isRun⟩ := Run.exists_takeWhile isWordPart rest
  rw [taken]
  refine cuts_longest ⟨.word letter fun d member => (isWordPart_iff d).mp (isRun.all d member),
    List.prefix_append (c :: run) tail, ?_⟩
  intro role piece lexeme begins
  have lead := lexeme.lead_of_begins begins
  rw [Lead.ofChar_letter letter] at lead
  cases lexeme with
  | word _ parts =>
      obtain ⟨-, begins⟩ := List.cons_prefix_cons.mp begins
      have short := isRun.length_le (fun d member => (isWordPart_iff d).mpr (parts d member)) begins
      exact Nat.succ_le_succ short
  | operator | comment | string | whole | decimal | separator => cases lead

/-- A number at the beginning of digits is no longer than they, or takes them all in and goes
    on behind a point. -/
theorem number_cases {run tail piece : List Char} (isRun : Run Char.isDigit run tail)
    (lexeme : Lexeme .number piece) (begins : piece <+: run ++ tail) :
    piece.length ≤ run.length ∨ ∃ fraction rest, IsDigits fraction ∧
      piece = run ++ '.' :: fraction ∧ tail = '.' :: rest ∧ fraction <+: rest := by
  cases lexeme with
  | whole digits =>
      exact .inl (isRun.length_le digits.all_isDigit begins)
  | decimal digits fractionDigits =>
      obtain ⟨rfl, rest, rfl, fractionBegins⟩ := isRun.stops digits.all_isDigit (by decide) begins
      exact .inr ⟨_, rest, fractionDigits, rfl, rfl, fractionBegins⟩

theorem number_of_digit {c : Char} (digit : IsDigit c) {role : Role} {piece rest : List Char}
    (lexeme : Lexeme role piece) (begins : piece <+: c :: rest) : Lexeme .number piece := by
  have lead := lexeme.lead_of_begins begins
  rw [Lead.ofChar_digit digit] at lead
  cases role with
  | number => exact lexeme
  | operator | comment | string | word | separator | fault => cases lead

theorem cuts_whole {c : Char} {run tail : List Char} (isRun : Run Char.isDigit (c :: run) tail)
    (noFraction : ∀ fraction rest, IsDigits fraction → tail = '.' :: rest → ¬ fraction <+: rest) :
    Cuts c (run ++ tail) ⟨.number, run.length⟩ := by
  have isDigits := isRun.isDigits (List.cons_ne_nil c run)
  refine cuts_longest ⟨.whole isDigits, List.prefix_append (c :: run) tail, ?_⟩
  intro role piece lexeme begins
  have isNumber := number_of_digit (isDigits.2 c List.mem_cons_self) lexeme begins
  rcases number_cases isRun isNumber begins with
    short | ⟨fraction, rest, digits, _, isTail, fractionBegins⟩
  · exact short
  · exact absurd fractionBegins (noFraction fraction rest digits isTail)

theorem cuts_decimal {c : Char} {run places after : List Char}
    (isRun : Run Char.isDigit (c :: run) ('.' :: (places ++ after)))
    (isPlaces : Run Char.isDigit places after) (nonempty : places ≠ []) :
    Cuts c (run ++ '.' :: (places ++ after)) ⟨.number, run.length + 1 + places.length⟩ := by
  have isDigits := isRun.isDigits (List.cons_ne_nil c run)
  have shape : run ++ '.' :: (places ++ after) = (run ++ '.' :: places) ++ after := by simp
  have size : run.length + 1 + places.length = (run ++ '.' :: places).length := by
    simp only [List.length_append, List.length_cons]
    omega
  rw [shape, size]
  refine cuts_longest ⟨.decimal isDigits (isPlaces.isDigits nonempty),
    List.prefix_append (c :: (run ++ '.' :: places)) after, ?_⟩
  intro role piece lexeme begins
  rw [← shape] at begins
  have isNumber := number_of_digit (isDigits.2 c List.mem_cons_self) lexeme begins
  rcases number_cases isRun isNumber begins with
    short | ⟨fraction, rest, digits, rfl, isTail, fractionBegins⟩
  · simp only [List.length_cons, List.length_append] at short ⊢
    omega
  · cases isTail
    have short := isPlaces.length_le digits.all_isDigit fractionBegins
    simp only [List.length_cons, List.length_append]
    omega

theorem cuts_number {c : Char} (digit : IsDigit c) (rest : List Char) :
    Cuts c rest (ofNumber rest) := by
  obtain ⟨run, tail, rfl, taken, isRun⟩ := Run.exists_takeWhile Char.isDigit rest
  have allDigits : Run Char.isDigit (c :: run) tail :=
    ⟨List.forall_mem_cons.mpr ⟨(isDigit_iff c).mpr digit, isRun.all⟩, isRun.ends⟩
  unfold ofNumber
  simp only [taken, List.drop_left]
  split
  · rename_i fraction
    obtain ⟨places, after, rfl, placesTaken, isPlaces⟩ := Run.exists_takeWhile Char.isDigit fraction
    rw [placesTaken]
    cases places with
    | nil =>
        apply cuts_whole allDigits
        intro fraction rest digits isTail fractionBegins
        cases isTail
        have short := isPlaces.length_le digits.all_isDigit fractionBegins
        exact digits.1 (List.eq_nil_of_length_eq_zero (Nat.le_zero.mp short))
    | cons d places => exact cuts_decimal allDigits isPlaces (List.cons_ne_nil d places)
  · rename_i noPoint
    apply cuts_whole allDigits
    intro fraction rest _ isTail
    exact absurd isTail (noPoint rest)

theorem string_of_quote {role : Role} {piece run tail : List Char}
    (isRun : Run (fun c => c != '"') run tail) (lexeme : Lexeme role piece)
    (begins : piece <+: '"' :: (run ++ tail)) :
    piece = '"' :: (run ++ ['"']) ∧ ∃ rest, tail = '"' :: rest := by
  have lead := lexeme.lead_of_begins begins
  cases lexeme with
  | string noQuote =>
      obtain ⟨-, begins⟩ := List.cons_prefix_cons.mp begins
      obtain ⟨rfl, rest, isTail, -⟩ := isRun.stops
        (fun c member => bne_iff_ne.mpr (noQuote c member)) (by decide) begins
      exact ⟨rfl, rest, isTail⟩
  | operator | comment | whole | decimal | word | separator => cases lead

theorem cuts_string (rest : List Char) : Cuts '"' rest (ofString rest) := by
  obtain ⟨run, tail, rfl, taken, isRun⟩ := Run.exists_takeWhile (fun c => c != '"') rest
  unfold ofString
  simp only [taken, List.drop_left]
  cases tail with
  | nil =>
      have noLexeme : NoLexeme ('"' :: (run ++ [])) := by
        intro role piece lexeme begins
        obtain ⟨-, rest, isTail⟩ := string_of_quote isRun lexeme begins
        cases isTail
      simpa [Cuts] using FirstPiece.unterminated noLexeme
  | cons stop after =>
      obtain rfl : stop = '"' := by simpa using isRun.ends stop rfl
      have shape : run ++ '"' :: after = (run ++ ['"']) ++ after := by simp
      have size : run.length + 1 = (run ++ ['"']).length := by simp
      simp only [shape, size]
      refine cuts_longest ⟨.string fun c member => bne_iff_ne.mp (isRun.all c member),
        List.prefix_append ('"' :: (run ++ ['"'])) after, ?_⟩
      intro role piece lexeme begins
      rw [← shape] at begins
      obtain ⟨rfl, -⟩ := string_of_quote isRun lexeme begins
      exact Nat.le_refl _

theorem operator_cases {kind : Kind} {piece rest : List Char} {c : Char}
    (lexeme : Lexeme (.operator kind) piece) (begins : piece <+: c :: rest) :
    piece = [c] ∨ piece = [c, '='] ∧ rest.head? = some '=' ∧
      (Kind.ofChar? c).bind Kind.withEqual? = some kind := by
  cases lexeme with
  | operator member =>
      have found := (mem_operatorSpellings_iff _ _).mp member
      obtain ⟨d, others, rfl, -⟩ := (Lexeme.operator member).lead_eq
      obtain ⟨rfl, ⟨after, rfl⟩⟩ := List.cons_prefix_cons.mp begins
      unfold spelledKind? at found
      split at found
      · rename_i same
        cases same
        exact .inl rfl
      · rename_i same
        cases same
        exact .inr ⟨rfl, rfl, found⟩
      · cases found

theorem cuts_comment (rest : List Char) (second : rest.head? = some '/') :
    Cuts '/' rest ⟨.comment, (rest.takeWhile fun d => d != '\n').length⟩ := by
  obtain ⟨others, rfl⟩ := List.head?_eq_some_iff.mp second
  obtain ⟨run, tail, rfl, taken, isRun⟩ := Run.exists_takeWhile (fun d => d != '\n') others
  have takenSecond : ('/' :: (run ++ tail)).takeWhile (fun d => d != '\n') = '/' :: run := by
    rw [List.takeWhile_cons_of_pos (by decide), taken]
  rw [takenSecond]
  refine @cuts_longest '/' ('/' :: run) tail _
    ⟨.comment fun d member => bne_iff_ne.mp (isRun.all d member),
      List.prefix_append ('/' :: '/' :: run) tail, ?_⟩
  intro role piece lexeme begins
  have lead := lexeme.lead_of_begins begins
  cases lexeme with
  | operator member =>
      rcases operator_cases (.operator member) begins with rfl | ⟨rfl, -⟩
      · simp
      · simp
  | comment noBreak =>
      obtain ⟨-, begins⟩ := List.cons_prefix_cons.mp begins
      obtain ⟨-, begins⟩ := List.cons_prefix_cons.mp begins
      have short := isRun.length_le (fun d member => bne_iff_ne.mpr (noBreak d member)) begins
      simpa using short
  | string | whole | decimal | word | separator => cases lead

/-- Every lexeme that begins with a mark, but not like a comment, is an operator. -/
theorem operator_of_mark {c : Char} {kind : Kind} {role : Role} {piece rest : List Char}
    (found : Kind.ofChar? c = some kind) (noComment : ¬ (c = '/' ∧ rest.head? = some '/'))
    (lexeme : Lexeme role piece) (begins : piece <+: c :: rest) :
    piece = [c] ∨ piece = [c, '='] ∧ rest.head? = some '=' ∧
      ∃ merged, kind.withEqual? = some merged := by
  have lead := lexeme.lead_of_begins begins
  rw [Lead.ofChar_mark found] at lead
  cases lexeme with
  | operator member =>
      rcases operator_cases (.operator member) begins with single | ⟨double, second, merges⟩
      · exact .inl single
      · exact .inr ⟨double, second, _, by simpa [found] using merges⟩
  | comment =>
      obtain ⟨rfl, after, rfl⟩ := List.cons_prefix_cons.mp begins
      exact absurd ⟨rfl, rfl⟩ noComment
  | string | whole | decimal | word | separator => cases lead

theorem cuts_operator {c : Char} {kind : Kind} (found : Kind.ofChar? c = some kind)
    {rest : List Char} (noComment : ¬ (c = '/' ∧ rest.head? = some '/')) :
    Cuts c rest (ofOperator kind rest) := by
  unfold ofOperator
  split
  · rename_i merged merges second
    obtain ⟨after, rfl⟩ := List.head?_eq_some_iff.mp second
    refine @cuts_longest c ['='] after _
      ⟨.operator ((mem_spellings_of_ofChar? found).2 merged merges), ⟨after, rfl⟩, ?_⟩
    intro role piece lexeme begins
    rcases operator_of_mark found noComment lexeme begins with rfl | ⟨rfl, -⟩
    · simp
    · simp
  · rename_i notMerged
    refine @cuts_longest c [] rest _
      ⟨.operator (mem_spellings_of_ofChar? found).1, ⟨rest, rfl⟩, ?_⟩
    intro role piece lexeme begins
    rcases operator_of_mark found noComment lexeme begins with rfl | ⟨-, second, merged, merges⟩
    · simp
    · exact absurd second (notMerged merged merges)

theorem cuts_stray {c : Char} (stray : Lead.ofChar c = .stray) (rest : List Char) :
    Cuts c rest ⟨.fault (.unsupported c), 0⟩ := by
  have noLexeme : NoLexeme (c :: rest) := by
    intro role piece lexeme begins
    have lead := lexeme.lead_of_begins begins
    rw [stray] at lead
    cases lexeme <;> cases lead
  have noQuote : c ≠ '"' := by
    rintro rfl
    exact absurd stray (by decide)
  exact .unsupported noLexeme noQuote

/-- The scanner finds the first piece. -/
theorem ofText_cuts (c : Char) (rest : List Char) : Cuts c rest (ofText c rest) := by
  unfold ofText
  split
  · rename_i separator
    exact cuts_separator ((isSeparator_iff c).mp separator) rest
  split
  · rename_i digit
    exact cuts_number ((isDigit_iff c).mp digit) rest
  split
  · rename_i letter
    exact cuts_word ((isWordStart_iff c).mp letter) rest
  split
  · rename_i quote
    subst quote
    exact cuts_string rest
  split
  · rename_i comment
    obtain ⟨rfl, second⟩ := comment
    exact cuts_comment rest second
  rename_i notSeparator notDigit notLetter notQuote noComment
  split
  · rename_i kind found
    exact cuts_operator found noComment
  · rename_i notMark
    refine cuts_stray ?_ rest
    simp [Lead.ofChar, notSeparator, notDigit, notLetter, notQuote, notMark]

end Extent

end Reckoner
