/-! # Kinds of tokens

The kind of a token is a punctuation mark or operator, a class of literals or names, one
of the reserved words, or the end of the input.
-/

namespace Reckoner

/-- The reserved words. Only some of them have a meaning in expressions. -/
inductive Keyword where
  | andWord
  | classWord
  | elseWord
  | falseWord
  | forWord
  | funWord
  | ifWord
  | nilWord
  | orWord
  | printWord
  | returnWord
  | superWord
  | thisWord
  | trueWord
  | varWord
  | whileWord
  deriving Repr, DecidableEq

namespace Keyword

def all : List Keyword :=
  [.andWord, .classWord, .elseWord, .falseWord, .forWord, .funWord, .ifWord, .nilWord,
    .orWord, .printWord, .returnWord, .superWord, .thisWord, .trueWord, .varWord, .whileWord]

def text : Keyword → String
  | .andWord => "and"
  | .classWord => "class"
  | .elseWord => "else"
  | .falseWord => "false"
  | .forWord => "for"
  | .funWord => "fun"
  | .ifWord => "if"
  | .nilWord => "nil"
  | .orWord => "or"
  | .printWord => "print"
  | .returnWord => "return"
  | .superWord => "super"
  | .thisWord => "this"
  | .trueWord => "true"
  | .varWord => "var"
  | .whileWord => "while"

/-- The reserved word spelled exactly so. -/
def ofText? (text : String) : Option Keyword :=
  all.find? fun word => word.text == text

end Keyword

inductive Kind where
  | leftParen
  | rightParen
  | leftBrace
  | rightBrace
  | comma
  | dot
  | minus
  | plus
  | semicolon
  | slash
  | star
  | bang
  | bangEqual
  | equal
  | equalEqual
  | greater
  | greaterEqual
  | less
  | lessEqual
  | identifier
  | string
  | number
  | keyword (word : Keyword)
  | endOfInput
  deriving Repr, DecidableEq

namespace Kind

def all : List Kind :=
  [.leftParen, .rightParen, .leftBrace, .rightBrace, .comma, .dot, .minus, .plus, .semicolon,
    .slash, .star, .bang, .bangEqual, .equal, .equalEqual, .greater, .greaterEqual, .less,
    .lessEqual, .identifier, .string, .number] ++ Keyword.all.map .keyword ++ [.endOfInput]

/-- The name under which a kind is listed. -/
def name : Kind → String
  | .leftParen => "LEFT_PAREN"
  | .rightParen => "RIGHT_PAREN"
  | .leftBrace => "LEFT_BRACE"
  | .rightBrace => "RIGHT_BRACE"
  | .comma => "COMMA"
  | .dot => "DOT"
  | .minus => "MINUS"
  | .plus => "PLUS"
  | .semicolon => "SEMICOLON"
  | .slash => "SLASH"
  | .star => "STAR"
  | .bang => "BANG"
  | .bangEqual => "BANG_EQUAL"
  | .equal => "EQUAL"
  | .equalEqual => "EQUAL_EQUAL"
  | .greater => "GREATER"
  | .greaterEqual => "GREATER_EQUAL"
  | .less => "LESS"
  | .lessEqual => "LESS_EQUAL"
  | .identifier => "IDENTIFIER"
  | .string => "STRING"
  | .number => "NUMBER"
  | .keyword word => word.text.toUpper
  | .endOfInput => "EOF"

def ofName? (name : String) : Option Kind :=
  all.find? fun kind => kind.name == name

/-- The kind of a word: a reserved word, or else a name. -/
def ofWord (text : String) : Kind :=
  match Keyword.ofText? text with
  | some word => .keyword word
  | none => .identifier

/-- The operators and marks of one character. -/
def ofChar? : Char → Option Kind
  | '(' => some .leftParen
  | ')' => some .rightParen
  | '\x7b' => some .leftBrace
  | '\x7d' => some .rightBrace
  | ',' => some .comma
  | '.' => some .dot
  | '-' => some .minus
  | '+' => some .plus
  | ';' => some .semicolon
  | '/' => some .slash
  | '*' => some .star
  | '!' => some .bang
  | '=' => some .equal
  | '>' => some .greater
  | '<' => some .less
  | _ => none

/-- The operator of two characters that an operator and a following `=` make. -/
def withEqual? : Kind → Option Kind
  | .bang => some .bangEqual
  | .equal => some .equalEqual
  | .greater => some .greaterEqual
  | .less => some .lessEqual
  | _ => none

/-- The words that begin a statement. -/
def startsStatement : Kind → Bool
  | .keyword word =>
      match word with
      | .classWord | .funWord | .varWord | .forWord | .ifWord | .whileWord | .printWord
      | .returnWord => true
      | _ => false
  | _ => false

end Kind

end Reckoner
