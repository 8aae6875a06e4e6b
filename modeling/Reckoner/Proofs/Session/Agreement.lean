import Reckoner.Proofs.Session.Delivery

/-! # A session and its log agree

A session goes through the stages of a source by itself, with listings in between, while a log
runs the source as a whole. Both come to the same: the same tree is evaluated, the same value is
written behind whatever is listed, and the same diagnostics are there in the end. What a session
lists is up to its flags, and nothing else is.
-/

namespace Reckoner

namespace Log

variable {log : Log} {source : String}

theorem tree?_eq_some_iff {expr : Expr} : log.tree? source = some expr ↔
    Evaluates log source expr := by
  constructor
  · intro found
    unfold tree? at found
    split at found
    · rename_i parsed parses
      rw [sourceError_scanned] at found
      split at found
      · cases found
      · rename_i unknown
        obtain ⟨clear, faultless⟩ : log.sourceError = false ∧ (scan source).diagnostics = [] := by
          simpa using unknown
        cases found
        exact ⟨parses, faultless, clear⟩
    · cases found
  · rintro ⟨parses, faultless, clear⟩
    have unknown : (log.reportAll (scan source).diagnostics).sourceError = false := by
      rw [sourceError_scanned, faultless, clear]
      rfl
    exact (log.run_of_parse parses unknown).1

theorem run_of_not_evaluates (never : ∀ expr, ¬ Evaluates log source expr) :
    log.tree? source = none ∧ (log.run source).1 = "" := by
  cases parsing : (scan source).stream.parse with
  | error diagnostic =>
      obtain ⟨noTree, ran⟩ := log.run_of_parse_error parsing
      exact ⟨noTree, by rw [ran]⟩
  | ok expr =>
      cases known : (log.reportAll (scan source).diagnostics).sourceError with
      | true =>
          obtain ⟨noTree, ran⟩ := log.run_of_sourceError parsing known
          exact ⟨noTree, by rw [ran]⟩
      | false =>
          have evaluates := tree?_eq_some_iff.mp (log.run_of_parse parsing known).1
          exact (never expr evaluates).elim

end Log

namespace Session

/-- A session without bounds does what running the source on its log does. Before the value it
    writes the tokens and the tree, if they are asked for, the tree only if it is evaluated;
    behind the diagnostics that were pending it hands out those of the run. Loading the source
    ends with the status that the log calls for. -/
theorem run_agrees_with_log (log : Log) (source : String) :
    (∃ reported, (log.run source).2.pending = log.pending ++ reported) ∧
    (∀ expr, Evaluates log source expr → log.run source = log.evaluate expr) ∧
    ∀ (showTokens showTree : Bool) (out err : ByteArray), ∃ tokens tree : String,
      tokens = (if showTokens then
        "\n".intercalate ((scan source).stream.toTokens.map Token.display) ++ "\n" else "") ∧
      (∀ expr, Evaluates log source expr →
        tree = if showTree then expr.display ++ "\n" else "") ∧
      ((∀ expr, ¬ Evaluates log source expr) → tree = "" ∧ (log.run source).1 = "") ∧
      let start : Session :=
        { showTokens, showTree, log, out := ⟨out, none⟩, err := ⟨err, none⟩ }
      let last : Session :=
        { showTokens, showTree
          log := { (log.run source).2 with pending := [] }
          out := ⟨out ++ (tokens ++ tree ++ (log.run source).1).toUTF8, none⟩
          err := ⟨err ++ (Diagnostic.lines (log.run source).2.pending).toUTF8, none⟩ }
      (run source).run start = .ok () last ∧
        ∀ path, (load path (.ok source.toUTF8)).run start = .ok (log.run source).2.status last := by
  refine ⟨?_, fun expr => Log.run_of_evaluates, ?_⟩
  · have logged := @log_run_of_fits { log } source rfl
    exact ⟨_, congrArg Log.pending logged⟩
  intro showTokens showTree out err
  let start : Session :=
    { showTokens, showTree, log, out := ⟨out, none⟩, err := ⟨err, none⟩ }
  refine ⟨start.listing source, (log.tree? source).elim "" start.treeLine, rfl, ?_, ?_, ?_⟩
  · intro expr evaluates
    rw [Log.tree?_eq_some_iff.mpr evaluates]
    rfl
  · intro never
    obtain ⟨noTree, nothing⟩ := Log.run_of_not_evaluates never
    exact ⟨by rw [noTree]; rfl, nothing⟩
  · have ran := @run_of_fits source start rfl
    have output : start.output source = start.listing source ++
        (log.tree? source).elim "" start.treeLine ++ (log.run source).1 :=
      String.append_assoc.symm
    rw [output] at ran
    refine ⟨ran, fun path => ?_⟩
    simp only [load, fromUTF8?_toUTF8]
    exact bind_of_ok ran

end Session

end Reckoner
