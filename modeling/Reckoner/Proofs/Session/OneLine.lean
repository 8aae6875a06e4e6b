import Reckoner.Proofs.Run.Placement
import Reckoner.Proofs.Session.Events
import Reckoner.Proofs.Text.Lines

/-! # Diagnostics at the prompt

A line at the prompt is run without the line breaks at its end, and it has none elsewhere. So
whatever it reports is placed on its only line, for any input and wherever the sinks stop the
prompt.
-/

namespace Reckoner

/-- Whatever is reported in the events is on line one. -/
def Event.OnLineOne (events : List Event) : Prop :=
  ∀ diagnostic, Event.report diagnostic ∈ events → diagnostic.line = 1

namespace Event.OnLineOne

theorem append {first second : List Event} (one : OnLineOne first) (other : OnLineOne second) :
    OnLineOne (first ++ second) := fun diagnostic member =>
  (List.mem_append.mp member).elim (one diagnostic) (other diagnostic)

theorem nil : OnLineOne [] := nofun

theorem reset : OnLineOne [.reset] := by
  intro diagnostic member
  cases List.mem_singleton.mp member

theorem continued {α : Type} {session : Session} {first : Action α}
    {rest : Session → List Event} (onLine : ∀ later, OnLineOne (rest later)) :
    OnLineOne (session.continued first rest) := by
  unfold Session.continued
  split
  · exact onLine _
  · exact nil

end Event.OnLineOne

namespace Session

open Event

theorem runEvents_on_line_one (session : Session) {source : String}
    (oneLine : '\n' ∉ source.toList) : OnLineOne (session.runEvents source) := by
  intro diagnostic member
  rcases List.mem_append.mp member with isReport | isDrain
  · obtain ⟨found, inReported, same⟩ := List.mem_map.mp isReport
    cases same
    obtain ⟨first, last⟩ := Log.reported_placed (session.reported_subset source inReported)
    rw [List.count_eq_zero_of_not_mem oneLine] at last
    exact Nat.le_antisymm last first
  · split at isDrain
    · cases List.mem_singleton.mp isDrain
    · cases isDrain

theorem answerEvents_on_line_one (session : Session) {line : String}
    (oneLine : '\n' ∉ dropLineEnd line.toList) : OnLineOne (session.answerEvents line) := by
  unfold answerEvents
  dsimp only
  split
  · exact .reset
  · rw [← String.toList_ofList (l := dropLineEnd line.toList)] at oneLine
    exact (session.runEvents_on_line_one oneLine).append (.continued fun _ => .reset)

theorem answerBytesEvents_on_line_one (session : Session) {line : List UInt8}
    (isLine : lineFeed ∉ line.dropLast) : OnLineOne (session.answerBytesEvents line) := by
  unfold answerBytesEvents
  cases found : String.fromUTF8? line.toByteArray with
  | none => exact .nil
  | some text =>
      have encoded : line = text.toList.flatMap String.utf8EncodeChar := by
        have bytes := (fromUTF8?_eq_some_iff _ _).mp found
        rw [String.toUTF8_eq_toByteArray, ← text.ofList_toList, String.toByteArray_ofList] at bytes
        exact List.toByteArray_inj.mp bytes
      rw [encoded] at isLine
      have isBody := isBody_dropLineEnd text.toList
      exact session.answerEvents_on_line_one (isBody.lineFeed_not_mem isLine)

theorem promptEvents_on_line_one {lines : List (List UInt8)}
    (areLines : ∀ line ∈ lines, lineFeed ∉ line.dropLast) (session : Session) :
    OnLineOne (promptEvents lines session) := by
  induction lines generalizing session with
  | nil => exact .nil
  | cons line lines ih =>
      obtain ⟨isLine, othersLines⟩ := List.forall_mem_cons.mp areLines
      apply OnLineOne.continued
      intro marked
      exact (marked.answerBytesEvents_on_line_one isLine).append (.continued (ih othersLines))

/-- Whatever session the prompt starts from and whatever the input is, all that is reported on
    the way is on line one. What is reported is what the log went through and what was written of
    it in the end. -/
theorem prompt_reports_on_line_one (session : Session) (input : List UInt8) :
    let events := promptEvents (byteLines input) session
    session.Follows events (session.after (prompt input)) ∧
      ∀ diagnostic, .report diagnostic ∈ events → diagnostic.line = 1 := by
  intro events
  have isLines := (isLines_iff input (byteLines input)).mpr rfl
  refine ⟨session.promptLines_follows (byteLines input), ?_⟩
  exact promptEvents_on_line_one (fun line => isLines.lineFeed_not_mem_dropLast) session

example : promptEvents (byteLines "1 +\r\r\n \n-nil".toUTF8.toList) {} =
    [.report (.syntactic 1 .atEnd "Expect expression."), .drain, .reset, .reset,
      .report (.runtime 1 "Operand must be number"), .drain, .reset] := by
  decide +kernel

end Session

end Reckoner
