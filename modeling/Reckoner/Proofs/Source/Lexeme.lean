import Reckoner.Source.Piece

/-! # Lexemes

The lexical grammar, told without the scanner: which texts are operators, comments, strings,
numbers, words and separators. A lexeme has only one role, and much of it shows in its first
character.
-/

namespace Reckoner

/-- One of the ten decimal digits. -/
def IsDigit (c : Char) : Prop := '0'.toNat ≤ c.toNat ∧ c.toNat ≤ '9'.toNat

/-- A letter without accents, or an underscore. -/
def IsLetter (c : Char) : Prop :=
  ('a'.toNat ≤ c.toNat ∧ c.toNat ≤ 'z'.toNat) ∨ ('A'.toNat ≤ c.toNat ∧ c.toNat ≤ 'Z'.toNat) ∨
    c = '_'

/-- One or more digits. -/
def IsDigits (text : List Char) : Prop := text ≠ [] ∧ ∀ c ∈ text, IsDigit c

/-- The operators and marks as they are spelled. -/
def operatorSpellings : List (List Char × Kind) :=
  [(['('], .leftParen), ([')'], .rightParen), (['\x7b'], .leftBrace), (['\x7d'], .rightBrace),
    ([','], .comma), (['.'], .dot), (['-'], .minus), (['+'], .plus), ([';'], .semicolon),
    (['/'], .slash), (['*'], .star), (['!'], .bang), (['!', '='], .bangEqual), (['='], .equal),
    (['=', '='], .equalEqual), (['>'], .greater), (['>', '='], .greaterEqual), (['<'], .less),
    (['<', '='], .lessEqual)]

/-- The text as a whole is a lexeme of the role. -/
inductive Lexeme : Role → List Char → Prop where
  | operator {kind : Kind} {text : List Char} :
      (text, kind) ∈ operatorSpellings → Lexeme (.operator kind) text
  | comment {body : List Char} : (∀ c ∈ body, c ≠ '\n') → Lexeme .comment ('/' :: '/' :: body)
  | string {body : List Char} : (∀ c ∈ body, c ≠ '"') → Lexeme .string ('"' :: (body ++ ['"']))
  | whole {digits : List Char} : IsDigits digits → Lexeme .number digits
  | decimal {whole fraction : List Char} :
      IsDigits whole → IsDigits fraction → Lexeme .number (whole ++ '.' :: fraction)
  | word {first : Char} {others : List Char} :
      IsLetter first → (∀ c ∈ others, IsLetter c ∨ IsDigit c) → Lexeme .word (first :: others)
  | separator {c : Char} : c ∈ [' ', '\r', '\t', '\n'] → Lexeme .separator [c]

@[simp] theorem isDigit_iff (c : Char) : c.isDigit = true ↔ IsDigit c := by
  simp [Char.isDigit, IsDigit, UInt32.le_iff_toNat_le]

theorem IsDigits.all_isDigit {text : List Char} (digits : IsDigits text) :
    ∀ c ∈ text, c.isDigit = true :=
  fun c member => (isDigit_iff c).mpr (digits.2 c member)

@[simp] theorem isUpper_iff (c : Char) :
    c.isUpper = true ↔ 'A'.toNat ≤ c.toNat ∧ c.toNat ≤ 'Z'.toNat :=
  decide_eq_true_iff

@[simp] theorem isLower_iff (c : Char) :
    c.isLower = true ↔ 'a'.toNat ≤ c.toNat ∧ c.toNat ≤ 'z'.toNat := by
  change (decide _ && decide _) = true ↔ _
  simp only [Bool.and_eq_true, decide_eq_true_eq]
  rfl

@[simp] theorem isWordStart_iff (c : Char) : isWordStart c = true ↔ IsLetter c := by
  change ((c.isUpper || c.isLower) || c == '_') = true ↔ _
  simp only [Bool.or_eq_true, beq_iff_eq, isUpper_iff, isLower_iff, IsLetter]
  grind

@[simp] theorem isWordPart_iff (c : Char) : isWordPart c = true ↔ IsLetter c ∨ IsDigit c := by
  simp [isWordPart]

@[simp] theorem isSeparator_iff (c : Char) :
    isSeparator c = true ↔ c ∈ [' ', '\r', '\t', '\n'] := by
  simp [isSeparator, or_assoc]

theorem not_isDigit_of_isLetter {c : Char} (letter : IsLetter c) : ¬ IsDigit c := by
  rintro ⟨_, high⟩
  rcases letter with ⟨lower, _⟩ | ⟨upper, _⟩ | rfl
  · exact absurd (Nat.le_trans lower high) (by decide)
  · exact absurd (Nat.le_trans upper high) (by decide)
  · exact absurd high (by decide)

theorem not_isSeparator_of_le {c : Char} (le : '0'.toNat ≤ c.toNat) : ¬ isSeparator c = true := by
  intro separator
  have member := (isSeparator_iff c).mp separator
  simp only [List.mem_cons, List.not_mem_nil, or_false] at member
  rcases member with rfl | rfl | rfl | rfl <;> exact absurd le (by decide)

theorem le_of_isLetter {c : Char} (letter : IsLetter c) : '0'.toNat ≤ c.toNat := by
  rcases letter with ⟨lower, _⟩ | ⟨upper, _⟩ | rfl
  · exact Nat.le_trans (by decide) lower
  · exact Nat.le_trans (by decide) upper
  · decide

/-- The kind of the operator with the given spelling, if there is one. -/
def spelledKind? : List Char → Option Kind
  | [c] => Kind.ofChar? c
  | [c, '='] => (Kind.ofChar? c).bind Kind.withEqual?
  | _ => none

theorem mem_spellings_of_ofChar? {c : Char} {kind : Kind} (found : Kind.ofChar? c = some kind) :
    ([c], kind) ∈ operatorSpellings ∧
      ∀ merged, kind.withEqual? = some merged → ([c, '='], merged) ∈ operatorSpellings := by
  unfold Kind.ofChar? at found
  split at found <;> cases found <;> simp [operatorSpellings, Kind.withEqual?]

@[simp] theorem mem_operatorSpellings_iff (text : List Char) (kind : Kind) :
    (text, kind) ∈ operatorSpellings ↔ spelledKind? text = some kind := by
  constructor
  · have spelled : ∀ entry ∈ operatorSpellings, spelledKind? entry.1 = some entry.2 := by decide
    exact spelled (text, kind)
  · intro found
    unfold spelledKind? at found
    split at found
    · exact (mem_spellings_of_ofChar? found).1
    · obtain ⟨single, isSingle, merges⟩ := Option.bind_eq_some_iff.mp found
      exact (mem_spellings_of_ofChar? isSingle).2 kind merges
    · cases found

/-- What the first character of a piece shows of its role. -/
inductive Lead where
  | separator
  | digit
  | letter
  | quote
  | mark
  | stray
  deriving Repr, DecidableEq

def Lead.ofChar (c : Char) : Lead :=
  if isSeparator c then .separator
  else if c.isDigit then .digit
  else if isWordStart c then .letter
  else if c = '"' then .quote
  else if (Kind.ofChar? c).isSome then .mark
  else .stray

def Role.lead : Role → Lead
  | .operator _ | .comment => .mark
  | .string => .quote
  | .number => .digit
  | .word => .letter
  | .separator => .separator
  | .fault _ => .stray

namespace Lead

theorem ofChar_separator {c : Char} (member : c ∈ [' ', '\r', '\t', '\n']) :
    ofChar c = .separator := by
  simp [ofChar, (isSeparator_iff c).mpr member]

theorem ofChar_digit {c : Char} (digit : IsDigit c) : ofChar c = .digit := by
  simp [ofChar, not_isSeparator_of_le digit.1, digit]

theorem ofChar_letter {c : Char} (letter : IsLetter c) : ofChar c = .letter := by
  have notSeparator := not_isSeparator_of_le (le_of_isLetter letter)
  have notDigit := not_isDigit_of_isLetter letter
  simp [ofChar, notSeparator, notDigit, letter]

theorem ofChar_mark {c : Char} {kind : Kind} (found : Kind.ofChar? c = some kind) :
    ofChar c = .mark := by
  unfold Kind.ofChar? at found
  split at found <;> cases found <;> decide

end Lead

theorem ofChar?_of_spelled {c : Char} {others : List Char} {kind : Kind}
    (found : spelledKind? (c :: others) = some kind) : ∃ single, Kind.ofChar? c = some single := by
  unfold spelledKind? at found
  split at found
  · rename_i same
    cases same
    exact ⟨kind, found⟩
  · rename_i same
    cases same
    obtain ⟨single, isSingle, _⟩ := Option.bind_eq_some_iff.mp found
    exact ⟨single, isSingle⟩
  · cases found

theorem Lexeme.lead_eq {role : Role} {text : List Char} (lexeme : Lexeme role text) :
    ∃ c others, text = c :: others ∧ Lead.ofChar c = role.lead := by
  cases lexeme with
  | operator member =>
      have found := (mem_operatorSpellings_iff _ _).mp member
      cases text with
      | nil => cases found
      | cons c others =>
          obtain ⟨single, isSingle⟩ := ofChar?_of_spelled found
          exact ⟨c, others, rfl, Lead.ofChar_mark isSingle⟩
  | comment | string => exact ⟨_, _, rfl, by decide⟩
  | whole digits =>
      obtain ⟨c, others, rfl⟩ := List.exists_cons_of_ne_nil digits.1
      exact ⟨c, others, rfl, Lead.ofChar_digit (digits.2 c List.mem_cons_self)⟩
  | decimal digits _ =>
      obtain ⟨c, others, rfl⟩ := List.exists_cons_of_ne_nil digits.1
      exact ⟨c, _, rfl, Lead.ofChar_digit (digits.2 c List.mem_cons_self)⟩
  | word letter _ => exact ⟨_, _, rfl, Lead.ofChar_letter letter⟩
  | separator member => exact ⟨_, _, rfl, Lead.ofChar_separator member⟩

theorem Lexeme.ne_nil {role : Role} {text : List Char} (lexeme : Lexeme role text) : text ≠ [] := by
  obtain ⟨c, others, rfl, -⟩ := lexeme.lead_eq
  exact List.cons_ne_nil c others

theorem Lexeme.lead_of_begins {role : Role} {piece rest : List Char} {c : Char}
    (lexeme : Lexeme role piece) (begins : piece <+: c :: rest) :
    role.lead = Lead.ofChar c := by
  obtain ⟨d, others, rfl, lead⟩ := lexeme.lead_eq
  obtain ⟨rfl, -⟩ := List.cons_prefix_cons.mp begins
  exact lead.symm

@[simp] theorem spelledKind?_comment (body : List Char) :
    spelledKind? ('/' :: '/' :: body) = none := by
  cases body <;> rfl

theorem Role.eq_of_lead {role role' : Role} (same : role.lead = role'.lead)
    (noMark : role.lead ≠ .mark) (noStray : role.lead ≠ .stray) : role = role' := by
  cases role <;> cases role' <;> simp_all [Role.lead]

/-- An operator and a comment differ in the second character. -/
theorem Lexeme.role_unique {role role' : Role} {text : List Char} (one : Lexeme role text)
    (other : Lexeme role' text) : role = role' := by
  have sameLead : role.lead = role'.lead := by
    obtain ⟨c, others, rfl, lead⟩ := one.lead_eq
    exact lead.symm.trans (other.lead_of_begins (List.prefix_refl _)).symm
  cases one with
  | operator member =>
      have found := (mem_operatorSpellings_iff _ _).mp member
      cases other with
      | operator member' =>
          have found' := (mem_operatorSpellings_iff _ _).mp member'
          rw [Option.some.inj (found.symm.trans found')]
      | comment => simp at found
      | string | whole | decimal | word | separator => cases sameLead
  | comment =>
      cases role' with
      | operator kind =>
          cases other with
          | operator member => simp at member
      | comment => rfl
      | string | number | word | separator | fault => cases sameLead
  | string | whole | decimal | word | separator =>
      exact Role.eq_of_lead sameLead (by simp [Role.lead]) (by simp [Role.lead])

end Reckoner
