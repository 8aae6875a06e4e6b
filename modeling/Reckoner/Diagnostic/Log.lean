import Reckoner.Diagnostic.Basic

/-! # The log

The log keeps the diagnostics that nobody has seen yet, and remembers for longer which
kinds of diagnostics there have been. Handing out the diagnostics does not forget the
kinds; only a fresh log does.
-/

namespace Reckoner

structure Log where
  /-- The diagnostics that have not been handed out, oldest first. -/
  pending : List Diagnostic := []
  /-- There has been a lexical or syntactic diagnostic. -/
  sourceError : Bool := false
  /-- There has been a runtime diagnostic. -/
  runtimeError : Bool := false
  deriving Repr, DecidableEq

namespace Log

def empty : Log := {}

def reportAll (log : Log) (diagnostics : List Diagnostic) : Log where
  pending := log.pending ++ diagnostics
  sourceError := log.sourceError || diagnostics.any fun d => !d.isRuntime
  runtimeError := log.runtimeError || diagnostics.any fun d => d.isRuntime

def report (log : Log) (diagnostic : Diagnostic) : Log := log.reportAll [diagnostic]

/-- The log after its diagnostics have been handed out. -/
def drained (log : Log) : Log := { log with pending := [] }

def display (log : Log) : String := Diagnostic.displayAll log.pending

/-- The exit status: `65` after a fault in the source, else `70` after a runtime error,
    else `0`. -/
def status (log : Log) : Nat :=
  if log.sourceError then 65 else if log.runtimeError then 70 else 0

@[simp] theorem pending_drained (log : Log) : log.drained.pending = [] := rfl

@[simp] theorem pending_reportAll (log : Log) (diagnostics : List Diagnostic) :
    (log.reportAll diagnostics).pending = log.pending ++ diagnostics := rfl

@[simp] theorem reportAll_nil (log : Log) : log.reportAll [] = log := by
  simp [reportAll]

@[simp] theorem reportAll_append (log : Log) (first second : List Diagnostic) :
    (log.reportAll first).reportAll second = log.reportAll (first ++ second) := by
  simp [reportAll, Bool.or_assoc]

@[simp] theorem reportAll_inj {log : Log} {diagnostics diagnostics' : List Diagnostic} :
    log.reportAll diagnostics = log.reportAll diagnostics' ↔ diagnostics = diagnostics' := by
  constructor
  · intro same
    exact List.append_cancel_left (congrArg Log.pending same)
  · rintro rfl
    rfl

@[simp] theorem reportAll_eq_self {log : Log} {diagnostics : List Diagnostic} :
    log.reportAll diagnostics = log ↔ diagnostics = [] := by
  have same := @reportAll_inj log diagnostics []
  rwa [reportAll_nil] at same

theorem flags_reportAll (log : Log) {diagnostics : List Diagnostic}
    (noRuntime : ∀ diagnostic ∈ diagnostics, diagnostic.isRuntime = false) :
    (log.reportAll diagnostics).sourceError = (log.sourceError || !diagnostics.isEmpty) ∧
      (log.reportAll diagnostics).runtimeError = log.runtimeError := by
  cases diagnostics with
  | nil => simp
  | cons first others =>
      have firstFault := noRuntime first List.mem_cons_self
      have othersQuiet : (first :: others).any (fun d => d.isRuntime) = false := by
        simpa using noRuntime
      simp [reportAll, firstFault, othersQuiet]

@[simp] theorem status_eq_iff (log : Log) : log.status = 65 ↔ log.sourceError = true := by
  unfold status
  split
  · simp_all
  · split <;> simp_all

end Log

end Reckoner
