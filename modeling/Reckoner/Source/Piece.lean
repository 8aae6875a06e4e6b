import Reckoner.Token.Basic
import Reckoner.Diagnostic.Basic

/-! # Pieces of source

A source text falls into pieces: operators and marks, strings, numbers, words, comments,
separating characters, and pieces that are none of these. The role of the first piece and
how far it reaches are decided by the text itself; a piece is as long as its role allows.
-/

namespace Reckoner

/-- Why a piece is no part of any program. -/
inductive LexicalFault where
  | unterminatedString
  | unsupported (c : Char)
  deriving Repr, DecidableEq

def LexicalFault.message : LexicalFault → String
  | .unterminatedString => "Unterminated string"
  | .unsupported c => "Unsupported character: " ++ c.toString

inductive Role where
  | operator (kind : Kind)
  | string
  | number
  | word
  | comment
  | separator
  | fault (fault : LexicalFault)
  deriving Repr, DecidableEq

structure Piece where
  /-- The line on which the piece begins. -/
  line : Nat
  role : Role
  text : List Char
  deriving Repr, DecidableEq

namespace Piece

/-- The line on which the piece ends. -/
def endLine (piece : Piece) : Nat := piece.line + piece.text.count '\n'

/-- Strings, numbers, words and operators are tokens, on the line on which they end. -/
def token? (piece : Piece) : Option Token :=
  let lexeme := String.ofList piece.text
  match piece.role with
  | .operator kind => some ⟨kind, lexeme, none, piece.endLine⟩
  | .string =>
      let body := String.ofList (piece.text.drop 1).dropLast
      some ⟨.string, lexeme, some (.text body), piece.endLine⟩
  | .number =>
      some ⟨.number, lexeme, some (.number (Decimal.ofText piece.text).toNumber), piece.endLine⟩
  | .word => some ⟨.ofWord lexeme, lexeme, none, piece.endLine⟩
  | _ => none

/-- A fault is reported on the line on which it begins. -/
def diagnostic? (piece : Piece) : Option Diagnostic :=
  match piece.role with
  | .fault fault => some (.lexical piece.line fault.message)
  | _ => none

end Piece

def isSeparator (c : Char) : Bool := c == ' ' || c == '\r' || c == '\t' || c == '\n'

def isWordStart (c : Char) : Bool := c.isAlpha || c == '_'

def isWordPart (c : Char) : Bool := isWordStart c || c.isDigit

/-- The role of the first piece of a text, and how many characters it has beyond its
    first. -/
structure Extent where
  role : Role
  more : Nat
  deriving Repr, DecidableEq

namespace Extent

/-- A number goes on over digits. It takes in a point only with a digit behind it. -/
def ofNumber (rest : List Char) : Extent :=
  let whole := (rest.takeWhile Char.isDigit).length
  match rest.drop whole with
  | '.' :: fraction => match (fraction.takeWhile Char.isDigit).length with
      | 0 => ⟨.number, whole⟩
      | digits + 1 => ⟨.number, whole + 1 + (digits + 1)⟩
  | _ => ⟨.number, whole⟩

/-- A string goes on to the next quote. Without one, the whole rest is a fault. -/
def ofString (rest : List Char) : Extent :=
  let body := (rest.takeWhile fun c => c != '"').length
  match rest.drop body with
  | [] => ⟨.fault .unterminatedString, body⟩
  | _ :: _ => ⟨.string, body + 1⟩

/-- An operator takes in a following `=` if that makes another operator. -/
def ofOperator (kind : Kind) (rest : List Char) : Extent :=
  match kind.withEqual?, rest.head? with
  | some merged, some '=' => ⟨.operator merged, 1⟩
  | _, _ => ⟨.operator kind, 0⟩

/-- The first piece of the text that starts with `c`. -/
def ofText (c : Char) (rest : List Char) : Extent :=
  if isSeparator c then ⟨.separator, 0⟩
  else if c.isDigit then ofNumber rest
  else if isWordStart c then ⟨.word, (rest.takeWhile isWordPart).length⟩
  else if c = '"' then ofString rest
  else if c = '/' ∧ rest.head? = some '/' then
    ⟨.comment, (rest.takeWhile fun d => d != '\n').length⟩
  else match Kind.ofChar? c with
    | some kind => ofOperator kind rest
    | none => ⟨.fault (.unsupported c), 0⟩

end Extent

end Reckoner
