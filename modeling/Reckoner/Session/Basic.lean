import Reckoner.Run
import Reckoner.Session.Failure
import Reckoner.Session.Sink
import Reckoner.Text.Lines

/-! # Sessions

A session runs sources one after the other, writing values to one sink and diagnostics
to another. Its actions may fail, and what they have done up to then stays done.
-/

namespace Reckoner

structure Session where
  /-- Write the tokens of each source. -/
  showTokens : Bool := false
  /-- Write the tree of each source that is evaluated. -/
  showTree : Bool := false
  log : Log := {}
  out : Sink := {}
  err : Sink := {}

abbrev Action := EStateM Failure Session

namespace Session

def putOut (session : Session) (text : String) : Session :=
  { session with out := session.out.write text.toUTF8 }

def putErr (session : Session) (text : String) : Session :=
  { session with err := session.err.write text.toUTF8 }

@[simp] theorem putOut_showTree (session : Session) (text : String) :
    (session.putOut text).showTree = session.showTree := rfl

@[simp] theorem putOut_putOut (session : Session) (first second : String) :
    (session.putOut first).putOut second = session.putOut (first ++ second) := by
  simp [putOut]

@[simp] theorem putOut_empty (session : Session) : session.putOut "" = session := by
  simp [putOut]

/-- Write as much as fits, and fail if that is not all. -/
def writeOut (text : String) : Action Unit := fun session =>
  if session.out.accepts text.utf8ByteSize then .ok () (session.putOut text)
  else .error .sinkFull (session.putOut text)

/-- Write as much as fits, and fail if that is not all. -/
def writeErr (text : String) : Action Unit := fun session =>
  if session.err.accepts text.utf8ByteSize then .ok () (session.putErr text)
  else .error .sinkFull (session.putErr text)

def setLog (log : Log) : Action Unit := modify fun session => { session with log }

def report (diagnostics : List Diagnostic) : Action Unit :=
  modify fun session => { session with log := session.log.reportAll diagnostics }

/-- Hand out the pending diagnostics. They count as handed out even if they cannot all
    be written. -/
def deliver : Action Unit := do
  let log := (← get).log
  setLog log.drained
  writeErr (String.join (log.pending.map fun diagnostic => diagnostic.display ++ "\n"))

/-- The tokens of a source, one in a line. -/
def tokenListing (stream : TokenStream) : String :=
  "\n".intercalate (stream.toTokens.map Token.display) ++ "\n"

/-- Evaluate a tree and write its value, or log why it has none. -/
def evaluate (expr : Expr) : Action Unit := do
  if (← get).showTree then writeOut (expr.display ++ "\n")
  let (text, log) := (← get).log.evaluate expr
  writeOut text
  setLog log

/-- Run a source and deliver all pending diagnostics. -/
def run (source : String) : Action Unit := do
  let scanned := scan source
  report scanned.diagnostics
  if (← get).showTokens then writeOut (tokenListing scanned.stream)
  match scanned.stream.parse with
  | .error diagnostic => report [diagnostic]
  | .ok expr => unless (← get).log.sourceError do evaluate expr
  deliver

/-- Run a line by itself, unless it is blank. What it logs is forgotten afterwards. -/
def answer (line : String) : Action Unit := do
  let body := dropLineEnd line.toList
  unless isBlank body do run (String.ofList body)
  setLog .empty

/-- Answer a line of input, if it is text at all. -/
def answerBytes (line : List UInt8) : Action Unit :=
  match String.fromUTF8? line.toByteArray with
  | some text => answer text
  | none => throw .invalidInput

def promptMark : String := "> "

/-- Answer lines one after the other, each behind a prompt. The end of the input is
    met at a prompt too. -/
def promptLines : List (List UInt8) → Action Unit
  | [] => do
      writeOut promptMark
      writeOut "\n"
  | line :: lines => do
      writeOut promptMark
      answerBytes line
      promptLines lines

def prompt (input : List UInt8) : Action Unit := promptLines (byteLines input)

/-- The exit status that the log calls for. -/
def status (session : Session) : Nat := session.log.status

/-- Run the source in a file, given what reading the file gave. -/
def load (path : String) (content : Except ReadFault ByteArray) : Action Nat :=
  match content with
  | .error fault => throw (.unreadable path fault)
  | .ok bytes =>
      match String.fromUTF8? bytes with
      | none => throw (.unreadable path .invalidText)
      | some source => do
          run source
          return (← get).status

end Session

end Reckoner
