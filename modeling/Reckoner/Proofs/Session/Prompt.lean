import Mathlib.Data.List.Forall2
import Reckoner.Proofs.Session.Unbounded
import Reckoner.Proofs.Session.Writing
import Reckoner.Proofs.Text.Lines

/-! # Lines at the prompt

Every line at the prompt is answered as if it were the first one of a new session: all lines
share one log, but each of them finds it fresh. The prompt gives up only at a line that is no
text.
-/

namespace Reckoner.Session

/-- A session with a fresh log that has written so much to its sinks, which have no bounds. -/
def ready (showTokens showTree : Bool) (out err : ByteArray) : Session :=
  { showTokens, showTree, out := ⟨out, none⟩, err := ⟨err, none⟩ }

/-- What a new session writes to its two sinks for a line. -/
inductive Reply (showTokens showTree : Bool) (line : String) : ByteArray × ByteArray → Prop where
  | blank {body : List Char} : IsBody line.toList body → (∀ c ∈ body, isBlankChar c = true) →
      Reply showTokens showTree line (.empty, .empty)
  | run {body : List Char} {last : Session} : IsBody line.toList body →
      (∃ c ∈ body, isBlankChar c = false) →
      (Session.run (String.ofList body)).run { showTokens, showTree } = .ok () last →
      Reply showTokens showTree line (last.out.written, last.err.written)

/-- Byte strings one after the other. -/
def joinBytes (parts : List ByteArray) : ByteArray := parts.foldr (· ++ ·) .empty

variable {showTokens showTree : Bool} {out err : ByteArray}

theorem run_ready (source : String) (out err : ByteArray) :
    (run source).run (ready showTokens showTree out err) = .ok ()
      { ready showTokens showTree
          (out ++ ((ready showTokens showTree .empty .empty).output source).toUTF8)
          (err ++ (Diagnostic.lines (Log.empty.run source).2.pending).toUTF8) with
        log := (Log.empty.run source).2.drained } :=
  run_of_fits rfl

/-- One line: the reply goes behind what has been written, and the log is fresh again. -/
theorem answer_ready (line : String) :
    ∃ reply, Reply showTokens showTree line reply ∧ ∀ out err : ByteArray,
      (answer line).run (ready showTokens showTree out err) =
        .ok () (ready showTokens showTree (out ++ reply.1) (err ++ reply.2)) := by
  have isBody := isBody_dropLineEnd line.toList
  by_cases blank : isBlank (dropLineEnd line.toList) = true
  · have allBlank : ∀ c ∈ dropLineEnd line.toList, isBlankChar c = true := by
      simpa [isBlank] using blank
    refine ⟨_, .blank isBody allBlank, fun out err => ?_⟩
    simp only [answer, if_pos blank, ByteArray.append_empty]
    rfl
  · have notBlank : ∃ c ∈ dropLineEnd line.toList, isBlankChar c = false := by
      simpa [isBlank] using blank
    refine ⟨_, .run isBody notBlank (run_ready _ .empty .empty), fun out err => ?_⟩
    simp only [answer, if_neg blank]
    rw [bind_of_ok (run_ready _ out err)]
    simp only [ready, ByteArray.empty_append]
    rfl

theorem answerBytes_of_text {line : List UInt8} {text : String}
    (isText : line.toByteArray = text.toUTF8) : answerBytes line = answer text := by
  unfold answerBytes
  rw [(fromUTF8?_eq_some_iff _ _).mpr isText]

theorem answerBytes_of_no_text {line : List UInt8}
    (noText : ∀ text : String, line.toByteArray ≠ text.toUTF8) :
    answerBytes line = throw .invalidInput := by
  have noString : String.fromUTF8? line.toByteArray = none :=
    Option.eq_none_iff_forall_ne_some.mpr fun text found =>
      noText text ((fromUTF8?_eq_some_iff _ _).mp found)
  unfold answerBytes
  rw [noString]

theorem writeOut_ready (text : String) (out err : ByteArray) :
    (writeOut text).run (ready showTokens showTree out err) =
      .ok () (ready showTokens showTree (out ++ text.toUTF8) err) := rfl

/-- What stands in the first sink after the replies, each behind its mark. -/
def dialogue (replies : List (ByteArray × ByteArray)) : ByteArray :=
  joinBytes (replies.map fun reply => "> ".toUTF8 ++ reply.1)

theorem promptLines_texts {lines : List (List UInt8)} {texts : List String}
    (areTexts : lines.map List.toByteArray = texts.map String.toUTF8) :
    ∃ replies, List.Forall₂ (Reply showTokens showTree) texts replies ∧
      ∀ (others : List (List UInt8)) (out err : ByteArray),
        (promptLines (lines ++ others)).run (ready showTokens showTree out err) =
          (promptLines others).run (ready showTokens showTree (out ++ dialogue replies)
            (err ++ joinBytes (replies.map Prod.snd))) := by
  induction lines generalizing texts with
  | nil =>
      obtain rfl : texts = [] := by simpa using areTexts.symm
      refine ⟨[], .nil, fun others out err => ?_⟩
      simp [dialogue, joinBytes]
  | cons line lines ih =>
      obtain ⟨text, texts, rfl⟩ : ∃ text rest, texts = text :: rest := by
        cases texts with
        | nil => simp at areTexts
        | cons text texts => exact ⟨text, texts, rfl⟩
      obtain ⟨isText, restTexts⟩ := List.cons.inj areTexts
      obtain ⟨reply, isReply, answered⟩ := @answer_ready showTokens showTree text
      obtain ⟨replies, areReplies, goesOn⟩ := ih restTexts
      refine ⟨reply :: replies, .cons isReply areReplies, fun others out err => ?_⟩
      rw [List.cons_append, promptLines, bind_of_ok (writeOut_ready _ out err),
        answerBytes_of_text isText, bind_of_ok (answered _ _), goesOn]
      simp only [dialogue, joinBytes, List.map_cons, List.foldr_cons, ByteArray.append_assoc]
      rfl

/-- The prompt answers every line as a new session would, and leaves the log fresh. It comes to
    the end of the input or stops before the first line that is no text. -/
theorem prompt_answers_lines_apart (showTokens showTree : Bool) (out err : ByteArray)
    (input : List UInt8) :
    ∃ lines, (∀ other, IsLines input other ↔ other = lines) ∧
      (∀ texts : List String, lines.map List.toByteArray = texts.map String.toUTF8 →
        ∃ replies, List.Forall₂ (Reply showTokens showTree) texts replies ∧
          (do prompt input; return 0 : Action Nat).run (ready showTokens showTree out err) =
            .ok 0 (ready showTokens showTree (out ++ dialogue replies ++ "> \n".toUTF8)
              (err ++ joinBytes (replies.map Prod.snd)))) ∧
      ∀ (texts : List String) (before after : List (List UInt8)) (line : List UInt8),
        lines = before ++ line :: after →
        before.map List.toByteArray = texts.map String.toUTF8 →
        (∀ text : String, line.toByteArray ≠ text.toUTF8) →
        ∃ replies, List.Forall₂ (Reply showTokens showTree) texts replies ∧
          (do prompt input; return 0 : Action Nat).run (ready showTokens showTree out err) =
            .error .invalidInput (ready showTokens showTree (out ++ dialogue replies ++ "> ".toUTF8)
              (err ++ joinBytes (replies.map Prod.snd))) := by
  refine ⟨byteLines input, fun other => (isLines_iff input other).trans eq_comm, ?_, ?_⟩
  · intro texts areTexts
    obtain ⟨replies, areReplies, answered⟩ := @promptLines_texts showTokens showTree _ _ areTexts
    have ended := answered [] out err
    rw [List.append_nil, promptLines, bind_of_ok (writeOut_ready _ _ _), writeOut_ready,
      ByteArray.append_assoc] at ended
    exact ⟨replies, areReplies, bind_of_ok ended⟩
  · intro texts before after line parts areTexts noText
    obtain ⟨replies, areReplies, answered⟩ := @promptLines_texts showTokens showTree _ _ areTexts
    refine ⟨replies, areReplies, bind_of_error ?_⟩
    rw [prompt, parts, answered, promptLines, bind_of_ok (writeOut_ready _ _ _),
      answerBytes_of_no_text noText]
    rfl

end Reckoner.Session
