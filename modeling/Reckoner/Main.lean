import Reckoner.CommandLine

/-! # The program

Arguments, files and the terminal, around a session that does the work.
-/

namespace Reckoner.CommandLine

/-- The system's reason for refusing a file. -/
def readFault : IO.Error → ReadFault
  | .noFileOrDirectory _ _ _ => .missing
  | .permissionDenied _ _ _ => .refused "Permission denied" 13
  | .inappropriateType _ code reason | .invalidArgument _ code reason
  | .resourceExhausted _ code reason | .noSuchThing _ code reason
  | .otherError code reason | .resourceBusy code reason | .hardwareFault code reason
  | .unsupportedOperation code reason | .illegalOperation code reason =>
      .refused reason code.toNat
  | error => .refused error.toString 5

def readFile (path : String) : IO (Except ReadFault ByteArray) := do
  try
    return .ok (← IO.FS.readBinFile path)
  catch error =>
    return .error (readFault error)

/-- Print what a session has written since the last time. -/
def flush (session : Session) : IO Session := do
  let out ← IO.getStdout
  out.write session.out.written
  out.flush
  let err ← IO.getStderr
  err.write session.err.written
  err.flush
  return { session with out := {}, err := {} }

/-- Read on to the next line feed or to the end of the input. -/
partial def readLine (input : IO.FS.Stream) (line : ByteArray) : IO ByteArray := do
  let next ← input.read 1
  if next.isEmpty then return line
  if next.toList = [lineFeed] then return line ++ next
  readLine input (line ++ next)

/-- Answer lines from the terminal until the input ends. -/
partial def converse (session : Session) : IO (EStateM.Result Failure Session Nat) := do
  match (Session.writeOut Session.promptMark).run session with
  | .error failure session => return .error failure session
  | .ok _ session =>
      let session ← flush session
      let line ← readLine (← IO.getStdin) .empty
      if line.isEmpty then
        return ((do Session.writeOut "\n"; return 0 : Action Nat)).run session
      match (Session.answerBytes line.toList).run session with
      | .error failure session => return .error failure session
      | .ok _ session => converse (← flush session)

/-- Print what is left of an outcome and give its status. -/
def finish (outcome : Outcome) : IO UInt32 := do
  let out ← IO.getStdout
  out.write outcome.out
  out.flush
  let err ← IO.getStderr
  err.write outcome.err
  err.flush
  return outcome.status.toUInt32

def perform : Command → IO UInt32
  | .run options =>
      match options.file with
      | none => do finish (.ofResult (← converse options.session))
      | some path => do
          let content ← readFile path
          finish ((Command.run options).execute (fun _ => content) [])
  | command => finish (command.execute (fun _ => .error .missing) [])

end Reckoner.CommandLine

open Reckoner.CommandLine in
def main (arguments : List String) : IO UInt32 :=
  match Command.ofArguments arguments with
  | .ok command => perform command
  | .error error => finish ⟨2, .empty, ("error: " ++ error.message ++ "\n").toUTF8⟩
