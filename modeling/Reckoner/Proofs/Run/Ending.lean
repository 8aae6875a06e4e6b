import Mathlib.Logic.ExistsUnique
import Reckoner.Proofs.Evaluation.Legality
import Reckoner.Proofs.Session.Unbounded

/-! # How a run ends

A run of a source is refused, fails or is answered, and it is never two of these. A tree may
exist beside lexical faults; it is evaluated only if no fault of a source is known at all.
With a fresh log the ending can be told from the flags, and from the status of a session that
loads the source.
-/

namespace Reckoner

theorem scan_diagnostics_lexical (source : String) :
    ∀ diagnostic ∈ (scan source).diagnostics, diagnostic.isLexical := by
  intro diagnostic member
  obtain ⟨piece, _, found⟩ := List.mem_filterMap.mp member
  unfold Piece.diagnostic? at found
  split at found
  · cases found
    rfl
  · cases found

theorem TokenStream.parse_error_syntactic {stream : TokenStream} {diagnostic : Diagnostic}
    (refused : stream.parse = .error diagnostic) : diagnostic.isSyntactic := by
  unfold parse at refused
  split at refused
  · cases refused
  · cases refused
    rfl

theorem Log.evaluate_of_parse (log : Log) {stream : TokenStream} {expr : Expr}
    (parses : stream.parse = .ok expr) :
    (∃ value, expr.evaluate = .ok value ∧ log.evaluate expr = (value.display ++ "\n", log)) ∨
      ∃ fault : Diagnostic, fault.isRuntime ∧ log.evaluate expr = ("", log.report fault) := by
  have settled := (TokenStream.legal_of_parse parses).1.evaluate_settled
  unfold Log.evaluate
  generalize expr.evaluate = result at settled
  cases settled with
  | value value => exact .inl ⟨value, rfl, rfl⟩
  | @fault operator fault _ => exact .inr ⟨.runtime operator.line fault.message, rfl, rfl⟩

namespace Log

theorem sourceError_scanned (log : Log) (source : String) :
    (log.reportAll (scan source).diagnostics).sourceError =
      (log.sourceError || !(scan source).diagnostics.isEmpty) :=
  (log.flags_reportAll fun diagnostic member =>
    Diagnostic.not_isRuntime_of_isLexical (scan_diagnostics_lexical source diagnostic member)).1

end Log

/-- Running the source on top of the log comes to evaluating the tree: the source is the tree,
    and no fault is known, neither of this source nor of one before it. -/
structure Evaluates (log : Log) (source : String) (expr : Expr) : Prop where
  parses : (scan source).stream.parse = .ok expr
  faultless : (scan source).diagnostics = []
  clear : log.sourceError = false

theorem Log.run_of_evaluates {log : Log} {source : String} {expr : Expr}
    (evaluates : Evaluates log source expr) : log.run source = log.evaluate expr := by
  obtain ⟨parses, faultless, clear⟩ := evaluates
  simp [run, parses, faultless, clear]

inductive Ending where
  /-- A fault of this source or of an earlier one keeps it from being evaluated. -/
  | refused
  | failed
  | answered
  deriving Repr, DecidableEq

namespace Ending

/-- Whether there has been a fault of a source, and whether there has been a runtime error. -/
def flags : Ending → Bool × Bool
  | .refused => (true, false)
  | .failed => (false, true)
  | .answered => (false, false)

def status : Ending → Nat
  | .refused => 65
  | .failed => 70
  | .answered => 0

/-- What is written and reported when a run on top of the log ends so. -/
def Holds (log : Log) (source : String) : Ending → Prop
  | .refused => ∃ lexical syntactic : List Diagnostic,
      (∀ diagnostic ∈ lexical, diagnostic.isLexical) ∧
      (∀ diagnostic ∈ syntactic, diagnostic.isSyntactic) ∧ syntactic.length ≤ 1 ∧
      (lexical ++ syntactic ≠ [] ∨ log.sourceError = true) ∧
      log.run source = ("", log.reportAll (lexical ++ syntactic))
  | .failed => log.sourceError = false ∧
      ∃ fault : Diagnostic, fault.isRuntime ∧ log.run source = ("", log.report fault)
  | .answered => log.sourceError = false ∧
      ∃ expr value, (scan source).stream.parse = .ok expr ∧ expr.evaluate = .ok value ∧
        log.run source = (value.display ++ "\n", log)

theorem exists_holds (log : Log) (source : String) : ∃ ending, Holds log source ending := by
  have lexical := scan_diagnostics_lexical source
  have flag := log.sourceError_scanned source
  cases parsing : (scan source).stream.parse with
  | error diagnostic =>
      have syntactic := TokenStream.parse_error_syntactic parsing
      refine ⟨.refused, (scan source).diagnostics, [diagnostic], lexical, by simpa using syntactic,
        by simp, .inl (by simp), ?_⟩
      simp [Log.run, parsing, Log.report]
  | ok expr =>
      by_cases known : (log.reportAll (scan source).diagnostics).sourceError = true
      · refine ⟨.refused, (scan source).diagnostics, [], lexical, by simp, by simp, ?_, ?_⟩
        · rw [flag] at known
          simpa [or_comm] using known
        · simp [Log.run, parsing, known]
      · -- Without a known fault the scan has reported nothing, so the log is the old one.
        have clear : log.sourceError = false ∧ (scan source).diagnostics = [] := by
          rw [flag] at known
          simpa using known
        have runs := Log.run_of_evaluates ⟨parsing, clear.2, clear.1⟩
        obtain ⟨value, evaluated, printed⟩ | ⟨fault, isRuntime, reported⟩ :=
          log.evaluate_of_parse parsing
        · exact ⟨.answered, clear.1, expr, value, parsing, evaluated, runs.trans printed⟩
        · exact ⟨.failed, clear.1, fault, isRuntime, runs.trans reported⟩

theorem flags_of_holds {log : Log} {source : String} {ending : Ending}
    (holds : Holds log source ending) :
    (log.run source).2.sourceError = ending.flags.1 ∧
      (log.run source).2.runtimeError = (log.runtimeError || ending.flags.2) := by
  cases ending with
  | refused =>
      obtain ⟨lexical, syntactic, allLexical, allSyntactic, _, someFault, runs⟩ := holds
      have quiet : ∀ diagnostic ∈ lexical ++ syntactic, diagnostic.isRuntime = false := by
        intro diagnostic member
        rcases List.mem_append.mp member with inLexical | inSyntactic
        · exact Diagnostic.not_isRuntime_of_isLexical (allLexical diagnostic inLexical)
        · exact Diagnostic.not_isRuntime_of_isSyntactic (allSyntactic diagnostic inSyntactic)
      obtain ⟨sourceFlag, runtimeFlag⟩ := log.flags_reportAll quiet
      rw [runs, sourceFlag, runtimeFlag]
      refine ⟨?_, by simp [flags]⟩
      rcases someFault with reported | known
      · simp [flags, List.isEmpty_eq_false_iff.mpr reported]
      · simp [flags, known]
  | failed =>
      obtain ⟨clear, fault, isRuntime, runs⟩ := holds
      rw [runs]
      simp [Log.report, Log.reportAll, clear, isRuntime, flags]
  | answered =>
      obtain ⟨clear, _, _, _, _, runs⟩ := holds
      rw [runs]
      simp [clear, flags]

theorem not_failed_and_answered {log : Log} {source : String} (failed : Holds log source .failed)
    (answered : Holds log source .answered) : False := by
  obtain ⟨_, fault, _, failedRun⟩ := failed
  obtain ⟨_, _, _, _, _, answeredRun⟩ := answered
  have same : log.reportAll [fault] = log :=
    congrArg Prod.snd (failedRun.symm.trans answeredRun)
  simp at same

theorem holds_unique {log : Log} {source : String} {ending ending' : Ending}
    (one : Holds log source ending) (other : Holds log source ending') : ending = ending' := by
  have same : ending.flags.1 = ending'.flags.1 :=
    (flags_of_holds one).1.symm.trans (flags_of_holds other).1
  cases ending with
  | refused =>
      cases ending' with
      | refused => rfl
      | failed | answered => cases same
  | failed =>
      cases ending' with
      | refused => cases same
      | failed => rfl
      | answered => exact (not_failed_and_answered one other).elim
  | answered =>
      cases ending' with
      | refused => cases same
      | failed => exact (not_failed_and_answered other one).elim
      | answered => rfl

theorem holds_iff_of_injective {α : Type} {shown : α} {view : Ending → α}
    (injective : Function.Injective view) {log : Log} {source : String}
    (shows : ∀ ending, Holds log source ending → shown = view ending) (ending : Ending) :
    Holds log source ending ↔ shown = view ending := by
  constructor
  · exact shows ending
  · intro same
    obtain ⟨actual, holds⟩ := exists_holds log source
    obtain rfl : actual = ending := injective ((shows actual holds).symm.trans same)
    exact holds

theorem flags_injective : Function.Injective flags := by
  intro one other same
  cases one <;> cases other <;> simp_all [flags]

theorem status_injective : Function.Injective status := by
  intro one other same
  cases one <;> cases other <;> simp_all [status]

theorem fresh_flags {source : String} {ending : Ending} (holds : Holds .empty source ending) :
    ((Log.empty.run source).2.sourceError, (Log.empty.run source).2.runtimeError) =
      ending.flags := by
  obtain ⟨sourceFlag, runtimeFlag⟩ := flags_of_holds holds
  rw [sourceFlag, runtimeFlag]
  rfl

theorem fresh_status {source : String} {ending : Ending} (holds : Holds .empty source ending) :
    (Log.empty.run source).2.status = ending.status := by
  obtain ⟨sourceFlag, runtimeFlag⟩ := Prod.mk.inj (fresh_flags holds)
  rw [Log.status, sourceFlag, runtimeFlag]
  cases ending <;> rfl

end Ending

/-- A run has exactly one ending. From a fresh log the ending is what the flags say, and what
    the status says with which a session without bounds loads the source. -/
theorem run_has_one_ending (log : Log) (source : String) :
    (∃! ending : Ending, ending.Holds log source) ∧
      (∀ ending : Ending, ending.Holds .empty source ↔
        ((Log.empty.run source).2.sourceError, (Log.empty.run source).2.runtimeError) =
          ending.flags) ∧
      ∀ (showTokens showTree : Bool) (path : String), ∃ status after,
        (Session.load path (.ok source.toUTF8)).run { showTokens, showTree } = .ok status after ∧
          ∀ ending : Ending, ending.Holds .empty source ↔ status = ending.status := by
  refine ⟨?_, ?_, ?_⟩
  · obtain ⟨ending, holds⟩ := Ending.exists_holds log source
    exact ⟨ending, holds, fun _ other => Ending.holds_unique other holds⟩
  · exact Ending.holds_iff_of_injective Ending.flags_injective fun _ => Ending.fresh_flags
  · intro showTokens showTree path
    have unbounded : Session.Unbounded { showTokens, showTree } := ⟨rfl, rfl⟩
    obtain ⟨after, loaded, _, _⟩ := Session.load_leaves unbounded path source
    exact ⟨_, after, loaded,
      Ending.holds_iff_of_injective Ending.status_injective fun _ => Ending.fresh_status⟩

end Reckoner
