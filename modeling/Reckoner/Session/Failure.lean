/-! # Failures

What can keep a session from going on. A failure is not a fault of the program that is
run, and is told apart from its diagnostics.
-/

namespace Reckoner

/-- Why a file has no text. -/
inductive ReadFault where
  /-- The system refused, for a reason that it also gives a number. -/
  | refused (reason : String) (code : Nat)
  | invalidText
  deriving Repr, DecidableEq

def ReadFault.message : ReadFault → String
  | .refused reason code => reason ++ " (os error " ++ code.repr ++ ")"
  | .invalidText => "stream did not contain valid UTF-8"

def ReadFault.missing : ReadFault := .refused "No such file or directory" 2

inductive Failure where
  | sinkFull
  | invalidInput
  | unreadable (path : String) (fault : ReadFault)
  deriving Repr, DecidableEq

namespace Failure

def message : Failure → String
  | .sinkFull => "writer is full"
  | .invalidInput => ReadFault.invalidText.message
  | .unreadable path _ => "Could not read " ++ path

def cause? : Failure → Option String
  | .unreadable _ fault => some fault.message
  | _ => none

/-- The failure and its cause in one line. -/
def display (failure : Failure) : String :=
  match failure.cause? with
  | some cause => failure.message ++ ": " ++ cause
  | none => failure.message

/-- What is told to the user before giving up. -/
def report (failure : Failure) : String :=
  match failure.cause? with
  | some cause => "Error: " ++ failure.message ++ "\n\nCaused by:\n    " ++ cause ++ "\n"
  | none => "Error: " ++ failure.message ++ "\n"

end Failure

end Reckoner
