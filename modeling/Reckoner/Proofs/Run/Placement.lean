import Reckoner.Proofs.Grammar.Remainder
import Reckoner.Proofs.Session.Delivery
import Reckoner.Proofs.Source.Splitting

/-! # Where diagnostics are placed

Whatever running a source reports is placed on a line of that source: lexical faults where their
pieces begin, syntax errors at a token of the stream, runtime errors at an operator of the tree,
which is a token of the stream as well.
-/

namespace Reckoner

/-- The source has such a line; they are counted from one. -/
def HasLine (source : String) (line : Nat) : Prop :=
  1 ≤ line ∧ line ≤ 1 + source.toList.count '\n'

theorem Piece.line_le_endLine (piece : Piece) : piece.line ≤ piece.endLine :=
  Nat.le_add_right _ _

theorem Split.lines_of_mem {before whole : List Char} {pieces : List Piece}
    (split : Split before whole pieces) {piece : Piece} (member : piece ∈ pieces) :
    1 ≤ piece.line ∧ piece.endLine ≤ 1 + (before ++ whole).count '\n' := by
  induction split with
  | nil => cases member
  | @cons before whole text rest role pieces parts _ _ _ ih =>
      rcases List.mem_cons.mp member with rfl | inRest
      · refine ⟨Nat.le_add_right _ _, ?_⟩
        simp only [Piece.endLine, parts, List.count_append]
        omega
      · rw [parts, ← List.append_assoc]
        exact ih inRest

theorem scan_diagnostics_placed {source : String} {diagnostic : Diagnostic}
    (member : diagnostic ∈ (scan source).diagnostics) : HasLine source diagnostic.line := by
  obtain ⟨piece, inPieces, found⟩ := List.mem_filterMap.mp member
  obtain ⟨first, last⟩ := (pieces_split source).lines_of_mem inPieces
  rw [Piece.line_of_diagnostic? found]
  exact ⟨first, piece.line_le_endLine.trans last⟩

theorem scan_tokens_placed {source : String} {token : Token}
    (member : token ∈ (scan source).stream.toTokens) : HasLine source token.line := by
  have split := pieces_split source
  rcases List.mem_append.mp member with unread | isFinal
  · obtain ⟨piece, inPieces, found⟩ := List.mem_filterMap.mp unread
    obtain ⟨first, last⟩ := split.lines_of_mem inPieces
    rw [Piece.line_of_token? found]
    exact ⟨first.trans piece.line_le_endLine, last⟩
  · have isLast : token.line = 1 + source.toList.count '\n' := by
      rw [List.mem_singleton.mp isFinal]
      exact split.lastLine_eq
    exact ⟨isLast ▸ Nat.le_add_right _ _, Nat.le_of_eq isLast⟩

theorem TokenStream.exists_token_of_fault {stream : TokenStream} {expr : Expr}
    (parses : stream.parse = .ok expr) {diagnostic : Diagnostic}
    (member : diagnostic ∈ expr.faults) :
    ∃ token ∈ stream.toTokens, diagnostic.line = token.line := by
  have settled := (legal_of_parse parses).1.evaluate_settled
  unfold Expr.faults at member
  generalize expr.evaluate = result at settled member
  cases settled with
  | value => cases member
  | @fault operator fault inTree =>
      have isFault : diagnostic = .runtime operator.line fault.message :=
        List.mem_singleton.mp member
      exact ⟨operator, operators_subset_of_parse parses inTree, by rw [isFault]; rfl⟩

namespace Log

/-- What running a source on top of the log reports. -/
def reported (log : Log) (source : String) : List Diagnostic :=
  (scan source).diagnostics ++
    match (scan source).stream.parse with
    | .error diagnostic => [diagnostic]
    | .ok expr =>
        if (log.reportAll (scan source).diagnostics).sourceError then [] else expr.faults

@[simp] theorem run_snd (log : Log) (source : String) :
    (log.run source).2 = log.reportAll (log.reported source) := by
  unfold reported
  cases parsing : (scan source).stream.parse with
  | error diagnostic =>
      simp [(log.run_of_parse_error parsing).2, report]
  | ok expr =>
      cases known : (log.reportAll (scan source).diagnostics).sourceError with
      | true => simp [(log.run_of_sourceError parsing known).2]
      | false =>
          simp [(log.run_of_parse parsing known).2]

theorem reported_placed {log : Log} {source : String} {diagnostic : Diagnostic}
    (member : diagnostic ∈ log.reported source) : HasLine source diagnostic.line := by
  rcases List.mem_append.mp member with scanned | behind
  · exact scan_diagnostics_placed scanned
  · cases parsing : (scan source).stream.parse with
    | error refusal =>
        rw [parsing] at behind
        obtain rfl := List.mem_singleton.mp behind
        obtain ⟨token, inStream, sameLine⟩ := TokenStream.exists_token_of_parse_error parsing
        exact sameLine ▸ scan_tokens_placed inStream
    | ok expr =>
        simp only [parsing] at behind
        split at behind
        · cases behind
        · obtain ⟨token, inStream, sameLine⟩ := TokenStream.exists_token_of_fault parsing behind
          exact sameLine ▸ scan_tokens_placed inStream

end Log

/-- However early a run is stopped, it reports nothing else. -/
theorem Session.reported_subset (session : Session) (source : String) :
    session.reported source ⊆ session.log.reported source := by
  unfold Session.reported Log.reported
  refine List.append_subset.mpr ⟨List.subset_append_left _ _, ?_⟩
  split
  · apply List.subset_append_of_subset_right
    cases (scan source).stream.parse with
    | error diagnostic => exact List.Subset.refl _
    | ok expr =>
        dsimp only
        split
        · exact List.Subset.refl _
        · split
          · exact List.Subset.refl _
          · exact List.nil_subset _
  · exact List.nil_subset _

end Reckoner
