import Reckoner.Proofs.Run.Ending
import Reckoner.Proofs.Session.Writing

/-! # Delivery of diagnostics

A session whose second sink has no bound hands out every diagnostic once and in order, over any
number of runs. A run that finds the first sink full leaves its diagnostics behind, and the
next run that gets through hands them out before its own.
-/

namespace Reckoner

/-- What evaluating the tree reports. -/
def Expr.faults (expr : Expr) : List Diagnostic :=
  match expr.evaluate with
  | .ok _ => []
  | .error error => error.diagnostic?.toList

@[simp] theorem Log.evaluate_snd (log : Log) (expr : Expr) :
    (log.evaluate expr).2 = log.reportAll expr.faults := by
  unfold Log.evaluate Expr.faults
  cases expr.evaluate with
  | ok value => simp
  | error error => rfl

theorem Log.evaluate_fst {log : Log} {expr : Expr} (faulty : expr.faults ≠ []) :
    (log.evaluate expr).1 = "" := by
  unfold Expr.faults at faulty
  unfold Log.evaluate
  cases evaluated : expr.evaluate with
  | ok value => simp [evaluated] at faulty
  | error error => rfl

namespace Session

/-- What a run reports, stage by stage. It gets to parsing only past the listing of the tokens,
    and to evaluation only past the tree. -/
def reported (session : Session) (source : String) : List Diagnostic :=
  (scan source).diagnostics ++
    if session.out.accepts (session.listing source).utf8ByteSize then
      match (scan source).stream.parse with
      | .error diagnostic => [diagnostic]
      | .ok expr =>
          if (session.log.reportAll (scan source).diagnostics).sourceError then []
          else if session.out.accepts
            (session.listing source ++ session.treeLine expr).utf8ByteSize then expr.faults
          else []
    else []

theorem accepts_of_append {sink : Sink} {first second : String}
    (fits : sink.accepts (first ++ second).utf8ByteSize = true) :
    sink.accepts first.utf8ByteSize = true := by
  rw [accepts_append, Bool.and_eq_true] at fits
  exact fits.1

variable {session : Session} {source : String}

theorem log_run_of_fits (fits : session.out.accepts (session.output source).utf8ByteSize = true) :
    (session.log.run source).2 = session.log.reportAll (session.reported source) := by
  unfold reported output at *
  rw [if_pos (accepts_of_append fits)]
  cases parsing : (scan source).stream.parse with
  | error diagnostic =>
      simp [(session.log.run_of_parse_error parsing).2, Log.report]
  | ok expr =>
      cases known : (session.log.reportAll (scan source).diagnostics).sourceError with
      | true => simp [(session.log.run_of_sourceError parsing known).2]
      | false =>
          obtain ⟨tree, ran⟩ := session.log.run_of_parse parsing known
          rw [tree, Option.elim_some, ← String.append_assoc] at fits
          rw [ran, Log.evaluate_snd, Log.reportAll_append]
          simp only [Bool.false_eq_true, if_false, if_pos (accepts_of_append fits)]

theorem reported_of_full
    (full : session.out.accepts (session.output source).utf8ByteSize = false) :
    session.reported source = (scan source).diagnostics := by
  unfold reported output at *
  split
  · rename_i listed
    cases parsing : (scan source).stream.parse with
    | error diagnostic =>
        obtain ⟨noTree, ran⟩ := session.log.run_of_parse_error parsing
        simp [noTree, ran, listed] at full
    | ok expr =>
        cases known : (session.log.reportAll (scan source).diagnostics).sourceError with
        | true => simp
        | false =>
            obtain ⟨tree, ran⟩ := session.log.run_of_parse parsing known
            rw [tree, ran, Option.elim_some, ← String.append_assoc] at full
            by_cases faulty : expr.faults = []
            · simp [faulty]
            · rw [Log.evaluate_fst faulty, String.append_empty] at full
              simp only [full, Bool.false_eq_true, if_false, List.append_nil]
  · exact List.append_nil _

/-- The session that an action leaves behind, also when it fails. -/
def after {α : Type} (session : Session) (action : Action α) : Session :=
  match action.run session with
  | .ok _ last | .error _ last => last

/-- What has been handed out, and behind it what is still pending. -/
def told (session : Session) : ByteArray :=
  session.err.written ++ (Diagnostic.lines session.log.pending).toUTF8

@[simp] theorem after_writeOut (session : Session) (text : String) :
    session.after (writeOut text) = session.putOut text := by
  cases fits : session.out.accepts text.utf8ByteSize with
  | true => simp only [after, EStateM.run, writeOut, fits, if_true]
  | false => simp only [after, EStateM.run, writeOut, fits, Bool.false_eq_true, if_false]

@[simp] theorem after_writeErr (session : Session) (text : String) :
    session.after (writeErr text) = session.putErr text := by
  cases fits : session.err.accepts text.utf8ByteSize with
  | true => simp only [after, EStateM.run, writeErr, fits, if_true]
  | false => simp only [after, EStateM.run, writeErr, fits, Bool.false_eq_true, if_false]

theorem after_run_of_full
    (full : session.out.accepts (session.output source).utf8ByteSize = false) :
    session.after (run source) =
      { session.putOut (session.output source) with
        log := session.log.reportAll (scan source).diagnostics } := by
  rw [after, run_of_full full]

theorem after_run_of_fits
    (fits : session.out.accepts (session.output source).utf8ByteSize = true) :
    session.after (run source) =
      { (session.putOut (session.output source)).putErr
          (Diagnostic.lines (session.log.run source).2.pending) with
        log := (session.log.run source).2.drained } := by
  rw [after, run_of_fits fits]
  exact after_writeErr _ _

/-- A run adds what it reports to what is told, whether it hands it out or leaves it. -/
theorem told_after_run (unbounded : session.err.room = none) (source : String) :
    (session.after (run source)).told =
        session.told ++ (Diagnostic.lines (session.reported source)).toUTF8 ∧
      (session.after (run source)).err.room = none := by
  cases fits : session.out.accepts (session.output source).utf8ByteSize with
  | true =>
      rw [after_run_of_fits fits, log_run_of_fits fits]
      simp [told, putErr, putOut, Sink.write, unbounded, ByteArray.append_assoc]
  | false =>
      rw [after_run_of_full fits, reported_of_full fits]
      simp [told, putOut, unbounded, ByteArray.append_assoc]

inductive Call where
  | run (source : String)
  /-- Load a file, given what reading it gives. -/
  | load (path : String) (content : Except ReadFault ByteArray)

namespace Call

/-- The source that the call runs, if it comes to that. -/
def source? : Call → Option String
  | .run source => some source
  | .load _ (.ok bytes) => String.fromUTF8? bytes
  | .load _ (.error _) => none

/-- The session that the call leaves behind. -/
def perform (call : Call) (session : Session) : Session :=
  match call with
  | .run source => session.after (Session.run source)
  | .load path content => session.after (Session.load path content)

/-- What the call reports. -/
def reported (call : Call) (session : Session) : List Diagnostic :=
  call.source?.elim [] session.reported

end Call

theorem load_of_source {path source : String} {content : Except ReadFault ByteArray}
    (found : (Call.load path content).source? = some source) (session : Session) :
    session.after (load path content) = session.after (run source) := by
  cases content with
  | error fault => cases found
  | ok bytes =>
      change String.fromUTF8? bytes = some source at found
      simp only [load, found, after, EStateM.run, bind, EStateM.bind]
      cases run source session with
      | ok _ last => rfl
      | error failure last => rfl

theorem load_of_no_source {path : String} {content : Except ReadFault ByteArray}
    (missing : (Call.load path content).source? = none) (session : Session) :
    ∃ fault, (load path content).run session = .error (.unreadable path fault) session := by
  cases content with
  | error fault => exact ⟨fault, rfl⟩
  | ok bytes =>
      refine ⟨.invalidText, ?_⟩
      change String.fromUTF8? bytes = none at missing
      simp only [load, missing]
      rfl

theorem told_perform (unbounded : session.err.room = none) (call : Call) :
    (call.perform session).told =
        session.told ++ (Diagnostic.lines (call.reported session)).toUTF8 ∧
      (call.perform session).err.room = none := by
  have nothing : session.told ++ (Diagnostic.lines []).toUTF8 = session.told := by
    simp
  cases call with
  | run source => exact told_after_run unbounded source
  | load path content =>
      cases found : (Call.load path content).source? with
      | some source =>
          simp only [Call.perform, Call.reported, found, Option.elim_some,
            load_of_source found session]
          exact told_after_run unbounded source
      | none =>
          obtain ⟨fault, failed⟩ := load_of_no_source found session
          simp only [Call.perform, Call.reported, found, Option.elim_none, after, failed, nothing]
          exact ⟨trivial, unbounded⟩

/-- A call, and how much room the first sink has while it lasts. -/
structure Turn where
  room : Option Nat
  call : Call

/-- The session behind the turns, and all that was reported on the way. -/
def history (session : Session) : List Turn → Session × List Diagnostic
  | [] => (session, [])
  | turn :: turns =>
      let now : Session := { session with out := { session.out with room := turn.room } }
      let (last, diagnostics) := history (turn.call.perform now) turns
      (last, turn.call.reported now ++ diagnostics)

theorem told_history (unbounded : session.err.room = none) (turns : List Turn) :
    (session.history turns).1.told =
      session.told ++ (Diagnostic.lines (session.history turns).2).toUTF8 := by
  induction turns generalizing session with
  | nil => simp [history]
  | cons turn turns ih =>
      let now : Session := { session with out := { session.out with room := turn.room } }
      obtain ⟨told, stillUnbounded⟩ := @told_perform now unbounded turn.call
      have rest := ih stillUnbounded
      have sameTold : now.told = session.told := rfl
      change ((turn.call.perform now).history turns).1.told = session.told ++ (Diagnostic.lines
        (turn.call.reported now ++ ((turn.call.perform now).history turns).2)).toUTF8
      simp [rest, told, sameTold, ByteArray.append_assoc]

/-- From a fresh log on, what has been handed out and what is pending are together all that was
    reported, once and in order. A file that is no text, or none at all, changes nothing. -/
theorem diagnostics_delivered_once (showTokens showTree : Bool) (out : Sink) (err : ByteArray) :
    (∀ turns : List Turn,
      let start : Session := { showTokens, showTree, out, err := ⟨err, none⟩ }
      let last := (start.history turns).1
      let reported := (start.history turns).2
      last.err.written ++ (Diagnostic.lines last.log.pending).toUTF8 =
        err ++ (Diagnostic.lines reported).toUTF8) ∧
      ∀ (session : Session) (path : String) (content : Except ReadFault ByteArray),
        (∀ source : String, content ≠ .ok source.toUTF8) →
        ∃ fault, (load path content).run session = .error (.unreadable path fault) session := by
  refine ⟨?_, ?_⟩
  · intro turns start
    have allTold := @told_history start rfl turns
    have nothingTold : start.told = err := ByteArray.append_empty
    rw [nothingTold] at allTold
    exact allTold
  · intro session path content unreadable
    apply load_of_no_source
    cases content with
    | error fault => rfl
    | ok bytes =>
        apply Option.eq_none_iff_forall_ne_some.mpr
        intro source found
        exact unreadable source (congrArg Except.ok ((fromUTF8?_eq_some_iff bytes source).mp found))

/-- The tokens of the first source do not fit, and the second run hands out its error. -/
example :
    let start : Session := { showTokens := true }
    let full := (start.history [⟨some 3, .run "1 @"⟩]).1
    let later := (full.history [⟨none, .run "1 +"⟩]).1
    full.err.written.data = #[] ∧
      later.err.written.data = ("[line 1] Error: Unsupported character: @\n" ++
        "[line 1] Error at end: Expect expression.\n").toUTF8.data := by
  decide +kernel

end Session

end Reckoner
