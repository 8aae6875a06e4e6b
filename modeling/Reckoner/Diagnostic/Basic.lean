/-! # Diagnostics

What is wrong with a program, where, and how that is told to the user.
-/

namespace Reckoner

/-- Where in a line the reader stopped. -/
inductive Location where
  | atEnd
  | atLexeme (lexeme : String)
  deriving Repr, DecidableEq

inductive Diagnostic where
  /-- Text that is no token. -/
  | lexical (line : Nat) (message : String)
  /-- Tokens that are no expression. -/
  | syntactic (line : Nat) (location : Location) (message : String)
  /-- An expression that has no value. -/
  | runtime (line : Nat) (message : String)
  deriving Repr, DecidableEq

namespace Diagnostic

def line : Diagnostic → Nat
  | .lexical line _ | .syntactic line _ _ | .runtime line _ => line

def message : Diagnostic → String
  | .lexical _ message | .syntactic _ _ message | .runtime _ message => message

def isLexical : Diagnostic → Bool
  | .lexical _ _ => true
  | _ => false

def isSyntactic : Diagnostic → Bool
  | .syntactic _ _ _ => true
  | _ => false

def isRuntime : Diagnostic → Bool
  | .runtime _ _ => true
  | _ => false

theorem not_isRuntime_of_isLexical {diagnostic : Diagnostic} (lexical : diagnostic.isLexical) :
    diagnostic.isRuntime = false := by
  cases diagnostic <;> simp_all [isLexical, isRuntime]

theorem not_isRuntime_of_isSyntactic {diagnostic : Diagnostic}
    (syntactic : diagnostic.isSyntactic) : diagnostic.isRuntime = false := by
  cases diagnostic <;> simp_all [isSyntactic, isRuntime]

theorem not_isRuntime_eq (diagnostic : Diagnostic) :
    (!diagnostic.isRuntime) = (diagnostic.isLexical || diagnostic.isSyntactic) := by
  cases diagnostic <;> rfl

def display : Diagnostic → String
  | .lexical line message => "[line " ++ line.repr ++ "] Error: " ++ message
  | .syntactic line .atEnd message => "[line " ++ line.repr ++ "] Error at end: " ++ message
  | .syntactic line (.atLexeme lexeme) message =>
      "[line " ++ line.repr ++ "] Error at '" ++ lexeme ++ "': " ++ message
  | .runtime line message => message ++ "\n[line " ++ line.repr ++ "]"

/-- Several diagnostics, each from a new line on. -/
def displayAll (diagnostics : List Diagnostic) : String :=
  "\n".intercalate (diagnostics.map display)

end Diagnostic

end Reckoner
