import Reckoner.Diagnostic.Log
import Reckoner.Evaluation
import Reckoner.Grammar.Parse
import Reckoner.Source.Scan

/-! # Running a source

A source is scanned, parsed and evaluated. Diagnostics go to a log, and nothing is
evaluated while the log knows of a fault in a source.
-/

namespace Reckoner

/-- A type fault is a runtime error on the line of its operator. -/
def EvalError.diagnostic? : EvalError → Option Diagnostic
  | .illTyped fault operator => some (.runtime operator.line fault.message)
  | .notOperator _ _ => none

namespace Log

/-- Evaluate a tree. The result is the text to be printed and the log afterwards. -/
def evaluate (log : Log) (expr : Expr) : String × Log :=
  match expr.evaluate with
  | .ok value => (value.display ++ "\n", log)
  | .error error => ("", log.reportAll error.diagnostic?.toList)

/-- Run a source. The result is the text to be printed and the log afterwards. -/
def run (log : Log) (source : String) : String × Log :=
  let scanned := scan source
  let log := log.reportAll scanned.diagnostics
  match scanned.stream.parse with
  | .error diagnostic => ("", log.report diagnostic)
  | .ok expr => if log.sourceError then ("", log) else log.evaluate expr

end Log

end Reckoner
