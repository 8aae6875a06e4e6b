import Reckoner.Session.Basic

/-! # The command line

Arguments are read from left to right. The first one that is wrong, or that asks for
help or for the version, decides.
-/

namespace Reckoner.CommandLine

structure Options where
  showTokens : Bool := false
  showTree : Bool := false
  /-- The file to run. Without one, lines are read from a prompt. -/
  file : Option String := none
  deriving Repr, DecidableEq

inductive Command where
  | help
  | version
  | run (options : Options)
  deriving Repr, DecidableEq

/-- Why arguments are refused. -/
inductive UsageError where
  | unexpected (argument : String)
  | repeated (flag : String)
  | emptyFile
  deriving Repr, DecidableEq

def UsageError.message : UsageError → String
  | .unexpected argument => "unexpected argument '" ++ argument ++ "'"
  | .repeated flag => "the argument '" ++ flag ++ "' cannot be used multiple times"
  | .emptyFile => "a value is required for '[FILE]'"

/-- Take an argument as the file to run. -/
def Options.withFile (options : Options) (argument : String) : Except UsageError Options :=
  if options.file.isSome then .error (.unexpected argument)
  else if argument.isEmpty then .error .emptyFile
  else .ok { options with file := some argument }

/-- Read arguments none of which is an option. -/
def readFiles (options : Options) : List String → Except UsageError Command
  | [] => .ok (.run options)
  | argument :: rest =>
      match options.withFile argument with
      | .error error => .error error
      | .ok options => readFiles options rest

/-- Read arguments, given the options so far. Behind `--` no argument is an option, and
    `-` alone is none anywhere. In a group of short options only the first counts,
    since each of them decides. -/
def readArguments (options : Options) : List String → Except UsageError Command
  | [] => .ok (.run options)
  | "--" :: rest => readFiles options rest
  | "--help" :: _ => .ok .help
  | "--version" :: _ => .ok .version
  | "--tokens" :: rest =>
      if options.showTokens then .error (.repeated "--tokens")
      else readArguments { options with showTokens := true } rest
  | "--ast" :: rest =>
      if options.showTree then .error (.repeated "--ast")
      else readArguments { options with showTree := true } rest
  | argument :: rest =>
      match argument.toList with
      | '-' :: 'h' :: _ => .ok .help
      | '-' :: 'V' :: _ => .ok .version
      | '-' :: _ :: _ => .error (.unexpected argument)
      | _ =>
          match options.withFile argument with
          | .error error => .error error
          | .ok options => readArguments options rest

def Command.ofArguments (arguments : List String) : Except UsageError Command :=
  readArguments {} arguments

def helpText : String :=
  "Evaluates Slang expressions, from a file or line by line from a prompt\n\n" ++
  "Usage: slang [OPTIONS] [FILE]\n\n" ++
  "Arguments:\n" ++
  "  [FILE]  Source file. Starts an interactive prompt when omitted\n\n" ++
  "Options:\n" ++
  "      --tokens   Print the scanned tokens before evaluating\n" ++
  "      --ast      Print the parsed expression tree before evaluating\n" ++
  "  -h, --help     Print help\n" ++
  "  -V, --version  Print version\n"

def versionText : String := "slang 0.1.0\n"

def Options.session (options : Options) : Session :=
  { showTokens := options.showTokens, showTree := options.showTree }

/-- What a finished command leaves behind. -/
structure Outcome where
  status : Nat
  out : ByteArray
  err : ByteArray

/-- The outcome of an action. A failure is told after all else, with status `1`. -/
def Outcome.ofResult : EStateM.Result Failure Session Nat → Outcome
  | .ok status session => ⟨status, session.out.written, session.err.written⟩
  | .error failure session =>
      ⟨1, session.out.written, session.err.written ++ failure.report.toUTF8⟩

/-- Carry out a command on the given input and files. -/
def Command.execute (readFile : String → Except ReadFault ByteArray) (input : List UInt8) :
    Command → Outcome
  | .help => ⟨0, helpText.toUTF8, .empty⟩
  | .version => ⟨0, versionText.toUTF8, .empty⟩
  | .run options =>
      let action : Action Nat :=
        match options.file with
        | some path => Session.load path (readFile path)
        | none => do
            Session.prompt input
            return 0
      .ofResult (action.run options.session)

end Reckoner.CommandLine
