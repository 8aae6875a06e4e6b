import Reckoner.Proofs.Session.Delivery

/-! # What happens to a log

Only three things ever happen to a log: a diagnostic is reported to it, it is drained, and it is
made fresh. An action of a session is told as the list of these events, as far as it gets. The
events alone give the log that it leaves, and what has been written for the user to see.
-/

namespace Reckoner

inductive Event where
  | report (diagnostic : Diagnostic)
  | drain
  | reset
  deriving Repr, DecidableEq

namespace Log

/-- The log after an event. -/
def happen (log : Log) : Event → Log
  | .report diagnostic => log.report diagnostic
  | .drain => log.drained
  | .reset => .empty

/-- The log after events, the first one first. -/
def replay (log : Log) (events : List Event) : Log := events.foldl happen log

/-- What an event hands out. -/
def handsOut (log : Log) : Event → List Diagnostic
  | .drain => log.pending
  | .report _ | .reset => []

/-- What events hand out, one after the other. -/
def handedOut (log : Log) : List Event → List Diagnostic
  | [] => []
  | event :: events => log.handsOut event ++ (log.happen event).handedOut events

@[simp] theorem replay_nil (log : Log) : log.replay [] = log := rfl

@[simp] theorem handedOut_nil (log : Log) : log.handedOut [] = [] := rfl

@[simp] theorem replay_append (log : Log) (first second : List Event) :
    log.replay (first ++ second) = (log.replay first).replay second :=
  List.foldl_append

@[simp] theorem handedOut_append (log : Log) (first second : List Event) :
    log.handedOut (first ++ second) =
      log.handedOut first ++ (log.replay first).handedOut second := by
  induction first generalizing log with
  | nil => rfl
  | cons event first ih =>
      rw [List.cons_append, handedOut, ih, handedOut, List.append_assoc]
      rfl

@[simp] theorem replay_map_report (log : Log) (diagnostics : List Diagnostic) :
    log.replay (diagnostics.map .report) = log.reportAll diagnostics := by
  induction diagnostics generalizing log with
  | nil => simp
  | cons diagnostic diagnostics ih =>
      exact (ih (log.report diagnostic)).trans (reportAll_append log [diagnostic] diagnostics)

@[simp] theorem handedOut_map_report (log : Log) (diagnostics : List Diagnostic) :
    log.handedOut (diagnostics.map .report) = [] := by
  induction diagnostics generalizing log with
  | nil => rfl
  | cons diagnostic diagnostics ih => exact ih (log.report diagnostic)

end Log

namespace Session

/-- The events lead from one session to the other: the log went through them, and what they
    handed out was written, as far as it could be. -/
structure Follows (session : Session) (events : List Event) (last : Session) : Prop where
  log : last.log = session.log.replay events
  err : last.err = session.err.write (Diagnostic.lines (session.log.handedOut events)).toUTF8

/-- The events behind an action, if it succeeds. -/
def continued {α : Type} (session : Session) (first : Action α) (rest : Session → List Event) :
    List Event :=
  match first.run session with
  | .ok _ later => rest later
  | .error _ _ => []

namespace Follows

variable {session middle last : Session}

theorem of_same (sameLog : last.log = session.log) (sameErr : last.err = session.err) :
    session.Follows [] last := by
  refine ⟨sameLog, ?_⟩
  simp [sameErr]

theorem trans {first second : List Event} (one : session.Follows first middle)
    (other : middle.Follows second last) : session.Follows (first ++ second) last := by
  refine ⟨?_, ?_⟩
  · simp [other.log, one.log]
  · simp [other.err, one.err, one.log]

/-- Actions one after the other: the second one only comes if the first one succeeds. -/
theorem bind {α β : Type} {first : Action α} {next : α → Action β} {events : List Event}
    {rest : Session → List Event} (leads : session.Follows events (session.after first))
    (goesOn : ∀ result later, first.run session = .ok result later →
      later.Follows (rest later) (later.after (next result))) :
    session.Follows (events ++ session.continued first rest) (session.after (first >>= next)) := by
  unfold continued
  unfold after at leads ⊢
  cases ran : first.run session with
  | ok result later =>
      rw [ran] at leads
      rw [bind_of_ok ran]
      exact leads.trans (goesOn result later ran)
  | error failure later =>
      rw [ran] at leads
      rw [bind_of_error ran, List.append_nil]
      exact leads

end Follows

theorem writeOut_follows (session : Session) (text : String) :
    session.Follows [] (session.after (writeOut text)) := by
  rw [after_writeOut]
  exact .of_same rfl rfl

theorem setLog_empty_follows (session : Session) :
    session.Follows [.reset] (session.after (setLog .empty)) :=
  ⟨rfl, (Sink.write_empty session.err).symm⟩

/-- The events of a run. It comes to the drain if the first text finds room. -/
def runEvents (session : Session) (source : String) : List Event :=
  (session.reported source).map .report ++
    if session.out.accepts (session.output source).utf8ByteSize then [.drain] else []

/-- The events of answering a line. The log is made fresh only if the run succeeds. -/
def answerEvents (session : Session) (line : String) : List Event :=
  let body := dropLineEnd line.toList
  if isBlank body then [.reset]
  else
    session.runEvents (String.ofList body) ++
      session.continued (run (String.ofList body)) fun _ => [.reset]

def answerBytesEvents (session : Session) (line : List UInt8) : List Event :=
  (String.fromUTF8? line.toByteArray).elim [] session.answerEvents

/-- The events of answering lines, up to the first failure. -/
def promptEvents : List (List UInt8) → Session → List Event
  | [], _ => []
  | line :: lines, session =>
      session.continued (writeOut promptMark) fun marked =>
        marked.answerBytesEvents line ++ marked.continued (answerBytes line) (promptEvents lines)

/-- The events of loading a file; there are none if it has no text. -/
def loadEvents (session : Session) (path : String) (content : Except ReadFault ByteArray) :
    List Event :=
  (Call.load path content).source?.elim [] session.runEvents

theorem run_follows (session : Session) (source : String) :
    session.Follows (session.runEvents source) (session.after (run source)) := by
  unfold runEvents
  cases fits : session.out.accepts (session.output source).utf8ByteSize with
  | true =>
      rw [after_run_of_fits fits, log_run_of_fits fits, if_pos rfl]
      refine ⟨?_, ?_⟩
      · rw [Log.replay_append, Log.replay_map_report]
        rfl
      · simp [Log.handedOut, Log.handsOut, putErr, putOut]
  | false =>
      rw [after_run_of_full fits, if_neg Bool.false_ne_true, List.append_nil]
      refine ⟨?_, ?_⟩
      · simp [reported_of_full fits]
      · simp [putOut]

theorem answer_follows (session : Session) (line : String) :
    session.Follows (session.answerEvents line) (session.after (answer line)) := by
  unfold answerEvents answer
  by_cases blank : isBlank (dropLineEnd line.toList) = true
  · simp only [if_pos blank]
    exact session.setLog_empty_follows
  · simp only [if_neg blank]
    apply (session.run_follows _).bind
    intro _ later _
    exact later.setLog_empty_follows

theorem answerBytes_follows (session : Session) (line : List UInt8) :
    session.Follows (session.answerBytesEvents line) (session.after (answerBytes line)) := by
  unfold answerBytesEvents answerBytes
  cases String.fromUTF8? line.toByteArray with
  | some text => exact session.answer_follows text
  | none => exact .of_same rfl rfl

theorem promptLines_follows (session : Session) (lines : List (List UInt8)) :
    session.Follows (promptEvents lines session) (session.after (promptLines lines)) := by
  induction lines generalizing session with
  | nil =>
      rw [promptLines, writeOut_append]
      exact session.writeOut_follows _
  | cons line lines ih =>
      rw [promptLines, promptEvents, ← List.nil_append (session.continued _ _)]
      apply (session.writeOut_follows _).bind
      intro _ marked _
      apply (marked.answerBytes_follows line).bind
      intro _ next _
      exact ih next

theorem load_follows (session : Session) (path : String) (content : Except ReadFault ByteArray) :
    session.Follows (session.loadEvents path content) (session.after (load path content)) := by
  unfold loadEvents
  cases found : (Call.load path content).source? with
  | some source =>
      rw [load_of_source found]
      exact session.run_follows source
  | none =>
      obtain ⟨fault, failed⟩ := load_of_no_source found session
      rw [after, failed]
      exact .of_same rfl rfl

end Session

end Reckoner
