import Reckoner.Session.Basic

/-! # Sessions without bounds

While neither sink has a bound no write fails, and a session does to its log what running the
source does, apart from handing out what is pending at the end.
-/

namespace Reckoner.Session

/-- Neither sink has a bound. -/
structure Unbounded (session : Session) : Prop where
  out : session.out.room = none
  err : session.err.room = none

/-- The action succeeds with the result and leaves the log so, and the sinks unbounded. -/
def Leaves {α : Type} (action : Action α) (session : Session) (result : α) (log : Log) : Prop :=
  ∃ after, action.run session = .ok result after ∧ after.Unbounded ∧ after.log = log

namespace Leaves

variable {α β : Type} {session : Session}

theorem pure {result : α} (unbounded : session.Unbounded) :
    Leaves (Pure.pure result) session result session.log :=
  ⟨session, rfl, unbounded, rfl⟩

theorem bind {first : Action α} {next : α → Action β} {middle : α} {result : β}
    {log log' : Log} (leaves : Leaves first session middle log)
    (goesOn : ∀ after : Session, after.Unbounded → after.log = log →
      Leaves (next middle) after result log') :
    Leaves (first >>= next) session result log' := by
  obtain ⟨after, ran, unbounded, sameLog⟩ := leaves
  obtain ⟨last, ranNext, lastUnbounded, lastLog⟩ := goesOn after unbounded sameLog
  refine ⟨last, ?_, lastUnbounded, lastLog⟩
  change EStateM.bind first next session = _
  unfold EStateM.bind
  rw [show first session = .ok middle after from ran]
  exact ranNext

theorem get_bind {next : Session → Action β} {result : β} {log : Log}
    (leaves : Leaves (next session) session result log) :
    Leaves (get >>= next) session result log := leaves

end Leaves

variable {session : Session}

theorem writeOut_leaves (unbounded : session.Unbounded) (text : String) :
    Leaves (writeOut text) session () session.log := by
  refine ⟨session.putOut text, ?_, ⟨?_, unbounded.err⟩, rfl⟩
  · simp [EStateM.run, writeOut, Sink.accepts, unbounded.out]
  · simp [putOut, Sink.write, unbounded.out]

theorem writeErr_leaves (unbounded : session.Unbounded) (text : String) :
    Leaves (writeErr text) session () session.log := by
  refine ⟨session.putErr text, ?_, ⟨unbounded.out, ?_⟩, rfl⟩
  · simp [EStateM.run, writeErr, Sink.accepts, unbounded.err]
  · simp [putErr, Sink.write, unbounded.err]

theorem setLog_leaves (unbounded : session.Unbounded) (log : Log) :
    Leaves (setLog log) session () log :=
  ⟨{ session with log }, rfl, ⟨unbounded.out, unbounded.err⟩, rfl⟩

theorem report_leaves (unbounded : session.Unbounded) (diagnostics : List Diagnostic) :
    Leaves (report diagnostics) session () (session.log.reportAll diagnostics) :=
  ⟨{ session with log := session.log.reportAll diagnostics }, rfl,
    ⟨unbounded.out, unbounded.err⟩, rfl⟩

theorem deliver_leaves (unbounded : session.Unbounded) :
    Leaves deliver session () session.log.drained := by
  apply Leaves.get_bind
  apply (setLog_leaves unbounded _).bind
  intro after afterUnbounded sameLog
  exact sameLog ▸ writeErr_leaves afterUnbounded _

theorem Leaves.writeOut_if {α : Type} {next : PUnit → Action α} {result : α} {log : Log}
    (unbounded : session.Unbounded) (wanted : Bool) (text : String)
    (goesOn : ∀ after : Session, after.Unbounded → after.log = session.log →
      Leaves (next ()) after result log) :
    Leaves (if wanted = true then writeOut text >>= next else next ()) session result log := by
  cases wanted with
  | true => exact (writeOut_leaves unbounded text).bind goesOn
  | false => exact goesOn session unbounded rfl

theorem evaluate_leaves (unbounded : session.Unbounded) (expr : Expr) :
    Leaves (evaluate expr) session () (session.log.evaluate expr).2 := by
  apply Leaves.get_bind
  apply Leaves.writeOut_if unbounded
  intro now nowUnbounded sameLog
  apply Leaves.get_bind
  rw [sameLog]
  apply (writeOut_leaves nowUnbounded _).bind
  intro after afterUnbounded _
  exact setLog_leaves afterUnbounded _

/-- Running a source in a session leaves the log as running it alone does, with nothing
    pending. -/
theorem run_leaves (unbounded : session.Unbounded) (source : String) :
    Leaves (run source) session () (session.log.run source).2.drained := by
  have delivered (log : Log) (now : Session) (nowUnbounded : now.Unbounded)
      (sameLog : now.log = log) : Leaves deliver now () log.drained :=
    sameLog ▸ deliver_leaves nowUnbounded
  apply (report_leaves unbounded _).bind
  intro scanned scannedUnbounded scannedLog
  apply Leaves.get_bind
  apply Leaves.writeOut_if scannedUnbounded
  intro now nowUnbounded sameLog
  rw [scannedLog] at sameLog
  unfold Log.run
  cases parsing : (scan source).stream.parse with
  | error diagnostic =>
      have reported := report_leaves nowUnbounded [diagnostic]
      rw [sameLog] at reported
      simp only [parsing]
      exact reported.bind (delivered _)
  | ok expr =>
      apply Leaves.get_bind
      simp only [sameLog, parsing]
      split
      · exact delivered _ now nowUnbounded sameLog
      · have evaluated := evaluate_leaves nowUnbounded expr
        rw [sameLog] at evaluated
        exact evaluated.bind (delivered _)

@[simp] theorem fromUTF8?_toUTF8 (text : String) : String.fromUTF8? text.toUTF8 = some text := by
  have valid : text.toUTF8.IsValidUTF8 := text.toUTF8_eq_toByteArray ▸ text.isValidUTF8
  simp only [String.fromUTF8?, valid, dif_pos]
  rfl

theorem fromUTF8?_eq_some_iff (bytes : ByteArray) (text : String) :
    String.fromUTF8? bytes = some text ↔ bytes = text.toUTF8 := by
  constructor
  · intro found
    unfold String.fromUTF8? at found
    split at found
    · cases found
      rfl
    · cases found
  · rintro rfl
    exact fromUTF8?_toUTF8 text

theorem load_leaves (unbounded : session.Unbounded) (path source : String) :
    Leaves (load path (.ok source.toUTF8)) session (session.log.run source).2.status
      (session.log.run source).2.drained := by
  simp only [load, fromUTF8?_toUTF8]
  apply (run_leaves unbounded source).bind
  intro after afterUnbounded sameLog
  apply Leaves.get_bind
  have sameStatus : after.status = (session.log.run source).2.status := by
    rw [status, sameLog]
    rfl
  rw [← sameStatus, ← sameLog]
  exact Leaves.pure afterUnbounded

end Reckoner.Session
