import Reckoner.Session.Basic

/-! # What a run writes

However often a run writes, it writes one text to the one sink and then one to the other. What
it does to the log lies before the first of them and between the two, so a sink without room
stops it at one of two places. A run is brought into this form once, and everything about
failing writes is read off it.
-/

namespace Reckoner

namespace Session

theorem accepts_append (sink : Sink) (first second : String) :
    sink.accepts (first ++ second).utf8ByteSize = (sink.accepts first.utf8ByteSize &&
      (sink.write first.toUTF8).accepts second.utf8ByteSize) := by
  simp only [← String.size_toByteArray, String.toByteArray_append, ByteArray.size_append,
    Sink.accepts_add, String.toUTF8_eq_toByteArray]

theorem run_writeOut_bind {α : Type} (text : String) (next : Unit → Action α)
    (session : Session) :
    (writeOut text >>= next).run session =
      if session.out.accepts text.utf8ByteSize then (next ()).run (session.putOut text)
      else .error .sinkFull (session.putOut text) := by
  change EStateM.bind (writeOut text) next session = _
  unfold EStateM.bind writeOut
  by_cases fits : session.out.accepts text.utf8ByteSize = true
  · simp only [fits, if_true]
    rfl
  · simp only [fits]
    rfl

@[simp] theorem writeOut_empty : writeOut "" = pure () := by
  funext session
  change (if session.out.accepts 0 = true then _ else _) = EStateM.Result.ok () session
  simp

theorem writeOut_append (first second : String) :
    (do writeOut first; writeOut second) = writeOut (first ++ second) := by
  funext session
  change (writeOut first >>= fun _ => writeOut second).run session = _
  rw [run_writeOut_bind]
  unfold writeOut
  rw [accepts_append]
  cases fits : session.out.accepts first.utf8ByteSize with
  | true =>
      simp only [if_true, Bool.true_and, ← putOut_putOut]
      rfl
  | false =>
      have full : session.out.accepts first.toUTF8.size = false := fits
      have cut : session.putOut (first ++ second) = session.putOut first := by
        simp only [putOut, String.toUTF8_eq_toByteArray, String.toByteArray_append] at full ⊢
        rw [Sink.write_append_of_not_accepts full]
      simp [cut]

theorem writeOut_if (wanted : Bool) (text : String) (next : Unit → Action Unit) :
    (if wanted = true then writeOut text >>= next else next ()) =
      (writeOut (if wanted then text else "") >>= next) := by
  cases wanted with
  | true => rfl
  | false => simp

end Session

namespace Diagnostic

/-- The lines in which diagnostics are handed out. -/
def lines (diagnostics : List Diagnostic) : String :=
  String.join (diagnostics.map fun diagnostic => diagnostic.display ++ "\n")

@[simp] theorem lines_nil : lines [] = "" := rfl

@[simp] theorem lines_append (first second : List Diagnostic) :
    lines (first ++ second) = lines first ++ lines second := by
  simp [lines]

end Diagnostic

namespace Log

variable (log : Log) {source : String}

/-- The tree that running the source on top of the log evaluates, if it does. -/
def tree? (log : Log) (source : String) : Option Expr :=
  match (scan source).stream.parse with
  | .ok expr =>
      if (log.reportAll (scan source).diagnostics).sourceError then none else some expr
  | .error _ => none

theorem run_of_parse_error {diagnostic : Diagnostic}
    (refused : (scan source).stream.parse = .error diagnostic) :
    log.tree? source = none ∧
      log.run source = ("", (log.reportAll (scan source).diagnostics).report diagnostic) := by
  simp only [tree?, run, refused, and_self]

theorem run_of_sourceError {expr : Expr} (parses : (scan source).stream.parse = .ok expr)
    (known : (log.reportAll (scan source).diagnostics).sourceError = true) :
    log.tree? source = none ∧
      log.run source = ("", log.reportAll (scan source).diagnostics) := by
  simp only [tree?, run, parses, known, if_true, and_self]

theorem run_of_parse {expr : Expr} (parses : (scan source).stream.parse = .ok expr)
    (clear : (log.reportAll (scan source).diagnostics).sourceError = false) :
    log.tree? source = some expr ∧
      log.run source = (log.reportAll (scan source).diagnostics).evaluate expr := by
  simp [tree?, run, parses, clear]

end Log

namespace Session

/-- The tokens of a source, if they are to be shown. -/
def listing (session : Session) (source : String) : String :=
  if session.showTokens then tokenListing (scan source).stream else ""

/-- The tree, if it is to be shown. -/
def treeLine (session : Session) (expr : Expr) : String :=
  if session.showTree then expr.display ++ "\n" else ""

/-- All that a run would write to the first sink: the tokens, the tree and the value. -/
def output (session : Session) (source : String) : String :=
  session.listing source ++
    ((session.log.tree? source).elim "" session.treeLine ++ (session.log.run source).1)

theorem writeOut_bind_congr {text : String} {next next' : Unit → Action Unit} {session : Session}
    (agree : (next ()).run (session.putOut text) = (next' ()).run (session.putOut text)) :
    (writeOut text >>= next).run session = (writeOut text >>= next').run session := by
  rw [run_writeOut_bind, run_writeOut_bind, agree]

theorem bind_run_congr {first first' : Action Unit} {next : Unit → Action Unit}
    {session : Session} (agree : first.run session = first'.run session) :
    (first >>= next).run session = (first' >>= next).run session := by
  change EStateM.bind first next session = EStateM.bind first' next session
  unfold EStateM.bind
  rw [show first session = first' session from agree]

theorem bind_of_ok {α β : Type} {first : Action α} {next : α → Action β} {session last : Session}
    {result : α} (ran : first.run session = .ok result last) :
    (first >>= next).run session = (next result).run last := by
  change EStateM.bind first next session = _
  unfold EStateM.bind
  rw [show first session = .ok result last from ran]
  rfl

theorem bind_of_error {α β : Type} {first : Action α} {next : α → Action β}
    {session last : Session} {failure : Failure} (ran : first.run session = .error failure last) :
    (first >>= next).run session = .error failure last := by
  change EStateM.bind first next session = _
  unfold EStateM.bind
  rw [show first session = .error failure last from ran]

theorem evaluate_eq (expr : Expr) (session : Session) :
    (evaluate expr).run session =
      (do writeOut (session.treeLine expr ++ (session.log.evaluate expr).1)
          setLog (session.log.evaluate expr).2 : Action Unit).run session := by
  rw [← writeOut_append, bind_assoc]
  change (if session.showTree = true then writeOut (expr.display ++ "\n") >>= _ else _) session = _
  rw [writeOut_if]
  apply writeOut_bind_congr
  rfl

theorem run_eq (source : String) (session : Session) :
    (run source).run session =
      (do report (scan source).diagnostics
          writeOut (session.output source)
          setLog (session.log.run source).2
          deliver : Action Unit).run session := by
  let start : Session :=
    { session with log := session.log.reportAll (scan source).diagnostics }
  rw [output, ← writeOut_append]
  change (if start.showTokens = true then writeOut (tokenListing (scan source).stream) >>= _
    else _) start = EStateM.run (_ >>= _) start
  rw [writeOut_if, bind_assoc]
  apply writeOut_bind_congr
  -- The listing is written; the log is still that of the scan.
  generalize isNow : start.putOut _ = now
  have nowLog : now.log = session.log.reportAll (scan source).diagnostics := isNow ▸ rfl
  cases parsing : (scan source).stream.parse with
  | error diagnostic =>
      obtain ⟨noTree, ran⟩ := session.log.run_of_parse_error parsing
      rw [noTree, ran]
      change deliver.run { now with log := now.log.reportAll [diagnostic] } =
        (writeOut "" >>= _) now
      rw [nowLog, writeOut_empty]
      rfl
  | ok expr =>
      change (if now.log.sourceError = true then deliver else _) now = _
      cases known : (session.log.reportAll (scan source).diagnostics).sourceError with
      | true =>
          obtain ⟨noTree, ran⟩ := session.log.run_of_sourceError parsing known
          rw [noTree, ran, nowLog, if_pos known]
          change _ = (writeOut "" >>= _) now
          rw [writeOut_empty, ← nowLog]
          rfl
      | false =>
          obtain ⟨tree, ran⟩ := session.log.run_of_parse parsing known
          rw [tree, ran, nowLog, if_neg (by simp [known])]
          change (evaluate expr >>= fun _ => deliver).run now = _
          rw [bind_run_congr (evaluate_eq expr now), bind_assoc, nowLog]
          have sameLine : now.treeLine expr = session.treeLine expr := by
            simp [treeLine, ← isNow, start]
          rw [sameLine]
          rfl

/-- Without room for the first text a run stops there. Only scanning has reported anything. -/
theorem run_of_full {source : String} {session : Session}
    (full : session.out.accepts (session.output source).utf8ByteSize = false) :
    (run source).run session = .error .sinkFull
      { session.putOut (session.output source) with
        log := session.log.reportAll (scan source).diagnostics } := by
  rw [run_eq]
  exact (run_writeOut_bind _ _ _).trans (if_neg (by simp [full]))

/-- With room for the first text it remains to write the second. Nothing is pending then. -/
theorem run_of_fits {source : String} {session : Session}
    (fits : session.out.accepts (session.output source).utf8ByteSize = true) :
    (run source).run session =
      (writeErr (Diagnostic.lines (session.log.run source).2.pending)).run
        { session.putOut (session.output source) with
          log := (session.log.run source).2.drained } := by
  rw [run_eq]
  exact (run_writeOut_bind _ _ _).trans (if_pos fits)

/-- The session with so much room left in its sinks. -/
def withRoom (session : Session) (outRoom errRoom : Option Nat) : Session :=
  { session with
    out := { session.out with room := outRoom }, err := { session.err with room := errRoom } }

/-- A run that would write `out` and `err`, and leave the log so, can only stop at the end of
    the room for either. What it has reported by then depends on which of them it is, and
    not on what it was about to write. -/
theorem run_stops_at_room (session : Session) (source : String) :
    ∃ (out err : ByteArray) (log : Log),
      (run source).run (session.withRoom none none) = .ok ()
        { session with
          log
          out := ⟨session.out.written ++ out, none⟩
          err := ⟨session.err.written ++ err, none⟩ } ∧
      log.pending = [] ∧
      ∀ outRoom errRoom : Nat,
        (outRoom < out.size →
          (run source).run (session.withRoom (some outRoom) (some errRoom)) = .error .sinkFull
            { session with
              log := session.log.reportAll (scan source).diagnostics
              out := ⟨session.out.written ++ out.extract 0 outRoom, some 0⟩
              err := ⟨session.err.written, some errRoom⟩ }) ∧
        (out.size ≤ outRoom → errRoom < err.size →
          (run source).run (session.withRoom (some outRoom) (some errRoom)) = .error .sinkFull
            { session with
              log
              out := ⟨session.out.written ++ out, some (outRoom - out.size)⟩
              err := ⟨session.err.written ++ err.extract 0 errRoom, some 0⟩ }) ∧
        (out.size ≤ outRoom → err.size ≤ errRoom →
          (run source).run (session.withRoom (some outRoom) (some errRoom)) = .ok ()
            { session with
              log
              out := ⟨session.out.written ++ out, some (outRoom - out.size)⟩
              err := ⟨session.err.written ++ err, some (errRoom - err.size)⟩ }) := by
  let text := session.output source
  let after := (session.log.run source).2
  refine ⟨text.toUTF8, (Diagnostic.lines after.pending).toUTF8, after.drained, ?_, rfl, ?_⟩
  · exact run_of_fits rfl
  intro outRoom errRoom
  refine ⟨?_, ?_, ?_⟩
  · intro tooLong
    have full : (session.withRoom (some outRoom) (some errRoom)).out.accepts text.utf8ByteSize =
        false := decide_eq_false (Nat.not_le.mpr tooLong)
    rw [← Sink.write_of_lt tooLong]
    exact run_of_full full
  · intro outFits tooLong
    have fits : (session.withRoom (some outRoom) (some errRoom)).out.accepts text.utf8ByteSize =
        true := decide_eq_true outFits
    have full : ¬ decide ((Diagnostic.lines after.pending).utf8ByteSize ≤ errRoom) = true := by
      simpa using tooLong
    rw [← Sink.write_of_lt tooLong, ← Sink.write_of_le outFits]
    exact (run_of_fits fits).trans (if_neg full)
  · intro outFits errFits
    have fits : (session.withRoom (some outRoom) (some errRoom)).out.accepts text.utf8ByteSize =
        true := decide_eq_true outFits
    rw [← Sink.write_of_le errFits, ← Sink.write_of_le outFits]
    exact (run_of_fits fits).trans (if_pos (decide_eq_true errFits))

/-- The tree fits, but not with its line end. What is wrong with it is then never reported. -/
example :
    let start : Session := { showTree := true }
    (match (run "-nil").run (start.withRoom (some 7) (some 100)) with
      | .error .sinkFull last =>
          last.out.written.data == "(- nil)".toUTF8.data && last.log.pending.isEmpty
      | _ => false) = true := by
  decide +kernel

end Session

end Reckoner
