import Mathlib.Data.List.DropRight
import Reckoner.Proofs.Run.Placement
import Reckoner.Proofs.Session.Agreement
import Reckoner.Proofs.Session.Events

/-! # The log as a record of its history

Flags, pending diagnostics and status can be told from what has happened so far, whichever
operations it came from and whether or not they failed half way. The flags reach back to the last
time that the log was made fresh, the pending diagnostics only to the last time that it was
drained. So the status gets worse and never better in between, and from a fault of a source on
nothing is evaluated.
-/

namespace Reckoner

namespace Event

def reported? : Event → Option Diagnostic
  | .report diagnostic => some diagnostic
  | .drain | .reset => none

def isReset : Event → Bool
  | .reset => true
  | .report _ | .drain => false

/-- Nothing is pending behind such an event. -/
def empties : Event → Bool
  | .drain | .reset => true
  | .report _ => false

/-- What has been reported behind the last event of the given kind. -/
def reportedSince (kind : Event → Bool) (events : List Event) : List Diagnostic :=
  (events.rtakeWhile fun event => !kind event).filterMap reported?

variable {kind : Event → Bool} {event : Event}

theorem reportedSince_of_kind (is : kind event = true) (events : List Event) :
    reportedSince kind (events ++ [event]) = [] := by
  rw [reportedSince, List.rtakeWhile_concat_neg _ _ _ (by simp [is]), List.filterMap_nil]

theorem reportedSince_of_not_kind (isNot : kind event = false) (events : List Event) :
    reportedSince kind (events ++ [event]) =
      reportedSince kind events ++ event.reported?.toList := by
  rw [reportedSince, List.rtakeWhile_concat_pos _ _ _ (by simp [isNot]), List.filterMap_append]
  cases event <;> rfl

end Event

namespace Log

open Event

/-- The log is told by the events that have happened to it. -/
structure Records (events : List Event) (log : Log) : Prop where
  sourceError : log.sourceError = (reportedSince isReset events).any fun d => !d.isRuntime
  runtimeError : log.runtimeError = (reportedSince isReset events).any fun d => d.isRuntime
  pending : log.pending = reportedSince empties events

theorem Records.happen {events : List Event} {log : Log} (records : Records events log)
    (event : Event) : Records (events ++ [event]) (log.happen event) := by
  obtain ⟨sourceError, runtimeError, pending⟩ := records
  cases event with
  | report diagnostic =>
      have sinceReset := @reportedSince_of_not_kind isReset (.report diagnostic) rfl events
      have sinceEmpty := @reportedSince_of_not_kind empties (.report diagnostic) rfl events
      refine ⟨?_, ?_, ?_⟩
      · rw [sinceReset, List.any_append, ← sourceError]
        rfl
      · rw [sinceReset, List.any_append, ← runtimeError]
        rfl
      · rw [sinceEmpty, ← pending]
        rfl
  | drain =>
      have sinceReset : reportedSince isReset (events ++ [.drain]) = reportedSince isReset events :=
        (reportedSince_of_not_kind rfl events).trans (List.append_nil _)
      refine ⟨?_, ?_, ?_⟩
      · rw [sinceReset]
        exact sourceError
      · rw [sinceReset]
        exact runtimeError
      · exact (reportedSince_of_kind rfl events).symm
  | reset =>
      have sinceReset : reportedSince isReset (events ++ [.reset]) = [] :=
        reportedSince_of_kind rfl events
      refine ⟨?_, ?_, ?_⟩
      · rw [sinceReset]
        rfl
      · rw [sinceReset]
        rfl
      · exact (reportedSince_of_kind rfl events).symm

theorem Records.flags_iff {events : List Event} {log : Log} (records : Records events log) :
    (log.sourceError = true ↔
        ∃ d ∈ reportedSince isReset events, d.isLexical = true ∨ d.isSyntactic = true) ∧
      (log.runtimeError = true ↔ ∃ d ∈ reportedSince isReset events, d.isRuntime = true) := by
  rw [records.sourceError, records.runtimeError, List.any_eq_true, List.any_eq_true]
  simp only [Diagnostic.not_isRuntime_eq, Bool.or_eq_true, and_self]

theorem records_replay (events : List Event) : Records events (Log.empty.replay events) := by
  induction events using List.reverseRecOn with
  | nil => exact ⟨rfl, rfl, rfl⟩
  | append_singleton events event ih =>
      rw [replay_append]
      exact ih.happen event

/-- Every flag that is up in the first log is up in the second. -/
structure Worsens (log later : Log) : Prop where
  sourceError : log.sourceError = true → later.sourceError = true
  runtimeError : log.runtimeError = true → later.runtimeError = true

theorem Worsens.trans {log middle later : Log} (one : log.Worsens middle)
    (other : middle.Worsens later) : log.Worsens later :=
  ⟨fun up => other.sourceError (one.sourceError up),
    fun up => other.runtimeError (one.runtimeError up)⟩

theorem worsens_happen (log : Log) {event : Event} (noReset : event ≠ .reset) :
    log.Worsens (log.happen event) := by
  cases event with
  | report diagnostic =>
      refine ⟨fun up => ?_, fun up => ?_⟩
      · simp [happen, report, reportAll, up]
      · simp [happen, report, reportAll, up]
  | drain => exact ⟨id, id⟩
  | reset => exact absurd rfl noReset

theorem worsens_replay (log : Log) {events : List Event} (noReset : .reset ∉ events) :
    log.Worsens (log.replay events) := by
  induction events generalizing log with
  | nil => exact ⟨id, id⟩
  | cons event events ih =>
      obtain ⟨notFirst, notBehind⟩ := not_or.mp (mt List.mem_cons.mpr noReset)
      have first := log.worsens_happen (Ne.symm notFirst)
      exact first.trans (ih (log.happen event) notBehind)

/-- How far a status is on the way from `0` over `70` to `65`. -/
def severity (status : Nat) : Nat := [0, 70, 65].idxOf status

theorem Worsens.severity_le {log later : Log} (worsens : log.Worsens later) :
    severity log.status ≤ severity later.status := by
  unfold status
  split
  · rename_i up
    rw [if_pos (worsens.sourceError up)]
  · split
    · rename_i up
      rw [if_pos (worsens.runtimeError up)]
      split <;> decide
    · exact Nat.zero_le _

theorem refused_of_sourceError {log : Log} (known : log.sourceError = true) (source : String) :
    Ending.refused.Holds log source := by
  obtain ⟨ending, holds⟩ := Ending.exists_holds log source
  cases ending with
  | refused => exact holds
  | failed | answered => exact absurd (known.symm.trans holds.1) (by decide)

theorem not_isRuntime_of_sourceError {log : Log} (known : log.sourceError = true) {source : String}
    {diagnostic : Diagnostic} (member : diagnostic ∈ log.reported source) :
    diagnostic.isRuntime = false := by
  obtain ⟨lexical, syntactic, allLexical, allSyntactic, -, -, ran⟩ :=
    refused_of_sourceError known source
  have reported : log.reported source = lexical ++ syntactic :=
    reportAll_inj.mp ((log.run_snd source).symm.trans (congrArg Prod.snd ran))
  rw [reported] at member
  rcases List.mem_append.mp member with inLexical | inSyntactic
  · exact Diagnostic.not_isRuntime_of_isLexical (allLexical diagnostic inLexical)
  · exact Diagnostic.not_isRuntime_of_isSyntactic (allSyntactic diagnostic inSyntactic)

end Log

namespace Session

/-- All that can be done with a log or with the session around it. -/
inductive Operation where
  | report (diagnostic : Diagnostic)
  | drain
  | reset
  | scan (source : String)
  | parse (stream : TokenStream)
  | interpret (expr : Expr)
  | runSource (source : String)
  | run (source : String)
  | answer (line : String)
  | prompt (input : List UInt8)
  | load (path : String) (content : Except ReadFault ByteArray)

namespace Operation

/-- The session that the operation leaves behind, also when it fails. -/
def perform (operation : Operation) (session : Session) : Session :=
  match operation with
  | .report diagnostic => { session with log := session.log.report diagnostic }
  | .drain => { session with log := session.log.drained }
  | .reset => { session with log := .empty }
  | .scan source => { session with log := session.log.reportAll (Reckoner.scan source).diagnostics }
  | .parse stream =>
      match stream.parse with
      | .ok _ => session
      | .error diagnostic => { session with log := session.log.report diagnostic }
  | .interpret expr =>
      let (text, log) := session.log.evaluate expr
      { session.putOut text with log }
  | .runSource source =>
      let (text, log) := session.log.run source
      { session.putOut text with log }
  | .run source => session.after (Session.run source)
  | .answer line => session.after (Session.answer line)
  | .prompt input => session.after (Session.prompt input)
  | .load path content => session.after (Session.load path content)

/-- What the operation does to the log, step by step. -/
def events (operation : Operation) (session : Session) : List Event :=
  match operation with
  | .report diagnostic => [.report diagnostic]
  | .drain => [.drain]
  | .reset => [.reset]
  | .scan source => (Reckoner.scan source).diagnostics.map .report
  | .parse stream =>
      match stream.parse with
      | .ok _ => []
      | .error diagnostic => [.report diagnostic]
  | .interpret expr => expr.faults.map .report
  | .runSource source => (session.log.reported source).map .report
  | .run source => session.runEvents source
  | .answer line => session.answerEvents line
  | .prompt input => promptEvents (byteLines input) session
  | .load path content => session.loadEvents path content

theorem log_perform (operation : Operation) (session : Session) :
    (operation.perform session).log = session.log.replay (operation.events session) := by
  cases operation with
  | report diagnostic => rfl
  | drain => rfl
  | reset => rfl
  | scan source => exact (session.log.replay_map_report _).symm
  | parse stream =>
      simp only [perform, events]
      cases stream.parse with
      | ok expr => rfl
      | error diagnostic => rfl
  | interpret expr => simp [perform, events]
  | runSource source => simp [perform, events]
  | run source => exact (session.run_follows source).log
  | answer line => exact (session.answer_follows line).log
  | prompt input => exact (session.promptLines_follows (byteLines input)).log
  | load path content => exact (session.load_follows path content).log

end Operation

/-- An operation, and how much room the sinks have while it lasts. -/
structure Step where
  outRoom : Option Nat
  errRoom : Option Nat
  operation : Operation

/-- The session behind the steps, and all that has happened to its log on the way. -/
def course (session : Session) : List Step → Session × List Event
  | [] => (session, [])
  | step :: steps =>
      let now := session.withRoom step.outRoom step.errRoom
      let (last, events) := course (step.operation.perform now) steps
      (last, step.operation.events now ++ events)

theorem log_course (session : Session) (steps : List Step) :
    (session.course steps).1.log = session.log.replay (session.course steps).2 := by
  induction steps generalizing session with
  | nil => rfl
  | cons step steps ih =>
      have rest := ih (step.operation.perform (session.withRoom step.outRoom step.errRoom))
      rw [step.operation.log_perform, ← Log.replay_append] at rest
      exact rest

/-- Known faults keep a run from writing more than the tokens. -/
theorem out_after_run_of_sourceError {session : Session} (known : session.log.sourceError = true)
    (source : String) :
    (session.after (run source)).out = session.out.write (session.listing source).toUTF8 := by
  have never : ∀ expr, ¬ Evaluates session.log source expr := fun expr evaluates =>
    absurd (known.symm.trans evaluates.clear) (by decide)
  obtain ⟨noTree, nothing⟩ := Log.run_of_not_evaluates never
  have output : session.output source = session.listing source := by
    rw [Session.output, noTree, nothing, Option.elim_none, String.append_empty, String.append_empty]
  cases fits : session.out.accepts (session.output source).utf8ByteSize with
  | true =>
      rw [after_run_of_fits fits, output]
      rfl
  | false =>
      rw [after_run_of_full fits, output]
      rfl

/-- After any operations on a session that began with a fresh log, the log is told by what has
    been reported since it was last made fresh or drained. Until it is made fresh again the status
    only goes from `0` over `70` to `65`, and at `65` no source is evaluated any more. -/
theorem log_records_history (showTokens showTree : Bool) (out err : Sink) (steps : List Step) :
    let start : Session := { showTokens, showTree, out, err }
    let last := (start.course steps).1
    let sinceReset := Event.reportedSince Event.isReset (start.course steps).2
    let sinceEmpty := Event.reportedSince Event.empties (start.course steps).2
    let faulty := ∃ d ∈ sinceReset, d.isLexical = true ∨ d.isSyntactic = true
    let failed := ∃ d ∈ sinceReset, d.isRuntime = true
    (last.log.sourceError = true ↔ faulty) ∧ (last.log.runtimeError = true ↔ failed) ∧
      last.log.pending = sinceEmpty ∧
      (faulty → last.status = 65) ∧ (¬ faulty → failed → last.status = 70) ∧
      (¬ faulty → ¬ failed → last.status = 0) ∧
      ∀ more, Event.reset ∉ (last.course more).2 →
        let later := (last.course more).1
        Log.severity last.status ≤ Log.severity later.status ∧
        (last.status = 65 → ∀ source, Ending.refused.Holds later.log source ∧
          (∀ d ∈ later.reported source, d.isRuntime = false) ∧
          (later.after (run source)).out = later.out.write (later.listing source).toUTF8) := by
  intro start last sinceReset sinceEmpty faulty failed
  have records : Log.Records (start.course steps).2 last.log := by
    rw [log_course]
    exact Log.records_replay _
  obtain ⟨faultyIff, failedIff⟩ := records.flags_iff
  refine ⟨faultyIff, failedIff, records.pending, ?_, ?_, ?_, ?_⟩
  · intro isFaulty
    exact (Log.status_eq_iff _).mpr (faultyIff.mpr isFaulty)
  · intro notFaulty isFailed
    rw [status, Log.status, if_neg (mt faultyIff.mp notFaulty), if_pos (failedIff.mpr isFailed)]
  · intro notFaulty notFailed
    rw [status, Log.status, if_neg (mt faultyIff.mp notFaulty), if_neg (mt failedIff.mp notFailed)]
  · intro more noReset later
    have worsens := last.log.worsens_replay noReset
    rw [← log_course] at worsens
    refine ⟨worsens.severity_le, fun isWorst source => ?_⟩
    have known := worsens.sourceError ((Log.status_eq_iff _).mp isWorst)
    refine ⟨Log.refused_of_sourceError known source, fun diagnostic member => ?_,
      out_after_run_of_sourceError known source⟩
    exact Log.not_isRuntime_of_sourceError known (later.reported_subset source member)

/-- A refused source leads to the worst status, and a faultless one behind it is not evaluated. -/
example :
    let refused := (Session.course {} [⟨none, none, .run "1 +"⟩]).1
    let later := refused.course [⟨none, some 0, .run "2"⟩]
    refused.status = 65 ∧ later.2 = [.drain] ∧ later.1.out.written.data = #[] := by
  decide +kernel

end Session

end Reckoner
