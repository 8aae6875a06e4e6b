import Reckoner.Diagnostic.Basic
import Reckoner.Expr
import Reckoner.Grammar.Level
import Reckoner.Token.Stream

/-! # Parsing

An expression is read from the front of the unread tokens, looking no further than the
next one. Trees may not grow past a height limit: a node that is too tall is refused as
soon as it is complete, and an operand is not even begun below as many open unary
operators and parentheses as the limit allows. An end token is never read: running out
of unread tokens means standing at the one behind them, and one among them stops the
reader there.
-/

namespace Reckoner

/-- Why tokens are no expression. -/
inductive SyntaxFault where
  | missingOperand
  | unclosedGroup
  | tooDeep
  deriving Repr, DecidableEq

def SyntaxFault.message : SyntaxFault → String
  | .missingOperand => "Expect expression."
  | .unclosedGroup => "Expect ')' after expression."
  | .tooDeep => "Expression nests too deeply."

/-- An expression that has been read, with its height and the tokens behind it. -/
structure Parsed where
  expr : Expr
  height : Nat
  rest : List Token
  deriving Repr, DecidableEq

namespace Parsed

def literal (value : Value) (rest : List Token) : Parsed := ⟨.literal value, 1, rest⟩

def group (inner : Parsed) (rest : List Token) : Parsed :=
  ⟨.group inner.expr, inner.height + 1, rest⟩

def unary (operator : Token) (operand : Parsed) : Parsed :=
  ⟨.unary operator operand.expr, operand.height + 1, operand.rest⟩

def binary (left : Parsed) (operator : Token) (right : Parsed) : Parsed :=
  ⟨.binary left.expr operator right.expr, max left.height right.height + 1, right.rest⟩

end Parsed

/-- A refusal, with the tokens from the offending one on. -/
structure Rejection where
  fault : SyntaxFault
  rest : List Token
  deriving Repr, DecidableEq

abbrev Reading := Except Rejection Parsed

/-- Refuse a tree that is taller than the limit. -/
def Parsed.within (limit : Nat) (parsed : Parsed) : Reading :=
  if parsed.height ≤ limit then .ok parsed else .error ⟨.tooDeep, parsed.rest⟩

namespace Grammar

/-- Go on from a left operand over the operators of a level and their right operands.
    Every turn makes the tree taller, so the limit bounds the number of turns. -/
def chainFrom (limit : Nat) (level : Level) (operand : List Token → Reading)
    (left : Parsed) : Reading :=
  match left.rest with
  | [] => .ok left
  | operator :: rest =>
      if operator.kind.level? = some level then
        match operand rest with
        | .error rejection => .error rejection
        | .ok right =>
            if _h : (left.binary operator right).height ≤ limit then
              chainFrom limit level operand (left.binary operator right)
            else .error ⟨.tooDeep, right.rest⟩
      else .ok left
termination_by limit - left.height
decreasing_by simp only [Parsed.binary] at *; omega

/-- Operands joined by the operators of one level. -/
def chain (limit : Nat) (level : Level) (operand : List Token → Reading)
    (tokens : List Token) : Reading :=
  match operand tokens with
  | .error rejection => .error rejection
  | .ok left => chainFrom limit level operand left

/-- An expression over the given operands of the tightest level. -/
def expression (limit : Nat) (operand : List Token → Reading) : List Token → Reading :=
  chain limit .equality <| chain limit .comparison <| chain limit .term <|
    chain limit .factor operand

/-- Close the parenthesis before which the inner expression was begun. -/
def closeGroup (limit : Nat) (inner : Parsed) : Reading :=
  match inner.rest with
  | [] => .error ⟨.unclosedGroup, []⟩
  | token :: rest =>
      if token.kind = .rightParen then (inner.group rest).within limit
      else .error ⟨.unclosedGroup, token :: rest⟩

/-- A token that is an operand by itself. -/
def readLiteral (token : Token) (rest : List Token) : Reading :=
  match token.operandValue? with
  | some value => .ok (.literal value rest)
  | none => .error ⟨.missingOperand, token :: rest⟩

/-- A unary operator and its operand, an expression in parentheses, or a literal. `room`
    is how many more unary operators and parentheses may be open at a time. -/
def operand (limit : Nat) : (room : Nat) → List Token → Reading
  | _, [] => .error ⟨.missingOperand, []⟩
  | 0, token :: rest =>
      if token.kind.isUnary ∨ token.kind = .leftParen then .error ⟨.tooDeep, rest⟩
      else readLiteral token rest
  | room + 1, token :: rest =>
      if token.kind.isUnary then
        match operand limit room rest with
        | .error rejection => .error rejection
        | .ok inner => (Parsed.unary token inner).within limit
      else if token.kind = .leftParen then
        match expression limit (operand limit room) rest with
        | .error rejection => .error rejection
        | .ok inner => closeGroup limit inner
      else readLiteral token rest

/-- Read one expression of at most the given height. -/
def readWithin (limit : Nat) : List Token → Reading := expression limit (operand limit limit)

/-- How tall an expression may be. -/
def maxHeight : Nat := 128

/-- Skip at least one token, up to behind a semicolon, before a word that begins a
    statement, or to the end. -/
def skipStatement : List Token → List Token
  | [] => []
  | [token] => if token.kind = .endOfInput then [token] else []
  | token :: next :: rest =>
      if token.kind = .endOfInput then token :: next :: rest
      else if token.kind = .semicolon ∨ next.kind.startsStatement then next :: rest
      else skipStatement (next :: rest)

end Grammar

namespace TokenStream

/-- Place a refusal in the source. -/
def diagnostic (stream : TokenStream) (rejection : Rejection) : Diagnostic :=
  let token := stream.current rejection.rest
  let location := if token.kind = .endOfInput then .atEnd else .atLexeme token.lexeme
  .syntactic token.line location rejection.fault.message

/-- Read one expression. What follows it is ignored. -/
def parse (stream : TokenStream) : Except Diagnostic Expr :=
  match Grammar.readWithin Grammar.maxHeight stream.unread with
  | .ok parsed => .ok parsed.expr
  | .error rejection => .error (stream.diagnostic rejection)

/-- Go on to the next place where a statement may begin. -/
def nextStatement (stream : TokenStream) : TokenStream :=
  { stream with unread := Grammar.skipStatement stream.unread }

end TokenStream

end Reckoner
