import Reckoner.Text.Lines

/-! # Lines and their ends

What the lines of an input are, and what is left of a line without the line breaks at its end,
told without the functions that find them.
-/

namespace Reckoner

/-- The bytes are these lines one after the other. A line reaches to behind the first line feed;
    only the last one may be without. -/
inductive IsLines : List UInt8 → List (List UInt8) → Prop where
  | nil : IsLines [] []
  | last {line : List UInt8} : line ≠ [] → lineFeed ∉ line → IsLines line [line]
  | cons {line rest : List UInt8} {lines : List (List UInt8)} :
      lineFeed ∉ line → IsLines rest lines →
      IsLines (line ++ lineFeed :: rest) ((line ++ [lineFeed]) :: lines)

@[simp] theorem consByte_lineFeed (lines : List (List UInt8)) :
    consByte lineFeed lines = [lineFeed] :: lines := by
  cases lines with
  | nil => rfl
  | cons line lines => simp [consByte]

@[simp] theorem consByte_of_ne {byte : UInt8} (notFeed : byte ≠ lineFeed) (line : List UInt8)
    (lines : List (List UInt8)) : consByte byte (line :: lines) = (byte :: line) :: lines := by
  simp [consByte, notFeed]

theorem foldr_consByte {front : List UInt8} (noFeed : lineFeed ∉ front) (line : List UInt8)
    (lines : List (List UInt8)) :
    front.foldr consByte (line :: lines) = (front ++ line) :: lines := by
  induction front with
  | nil => rfl
  | cons byte front ih =>
      obtain ⟨notFeed, noFeed⟩ := not_or.mp (mt List.mem_cons.mpr noFeed)
      rw [List.foldr_cons, ih noFeed, consByte_of_ne (Ne.symm notFeed), List.cons_append]

theorem IsLines.byteLines_eq {bytes : List UInt8} {lines : List (List UInt8)}
    (isLines : IsLines bytes lines) : byteLines bytes = lines := by
  induction isLines with
  | nil => rfl
  | @last line nonempty noFeed =>
      obtain ⟨front, byte, isLine⟩ := (List.eq_nil_or_concat line).resolve_left nonempty
      rw [List.concat_eq_append] at isLine
      subst isLine
      have noFeedFront : lineFeed ∉ front := fun member => noFeed (List.mem_append_left _ member)
      rw [byteLines, List.foldr_append]
      exact foldr_consByte noFeedFront [byte] []
  | @cons line rest lines noFeed _ ih =>
      have cut : (lineFeed :: rest).foldr consByte [] = [lineFeed] :: lines := by
        rw [List.foldr_cons, ← consByte_lineFeed, ← ih]
        rfl
      rw [byteLines, List.foldr_append, cut, foldr_consByte noFeed]

theorem IsLines.cons_byte {bytes : List UInt8} {lines : List (List UInt8)}
    (isLines : IsLines bytes lines) (byte : UInt8) :
    IsLines (byte :: bytes) (consByte byte lines) := by
  by_cases feed : byte = lineFeed
  · rw [feed, consByte_lineFeed]
    exact @IsLines.cons [] bytes lines List.not_mem_nil isLines
  · have noFeed {line : List UInt8} (noFeed : lineFeed ∉ line) : lineFeed ∉ byte :: line :=
      fun member => (List.mem_cons.mp member).elim (Ne.symm feed) noFeed
    cases isLines with
    | nil => exact .last (List.cons_ne_nil byte []) (noFeed List.not_mem_nil)
    | last _ noFeedLine =>
        rw [consByte_of_ne feed]
        exact .last (List.cons_ne_nil _ _) (noFeed noFeedLine)
    | cons noFeedLine rest =>
        rw [consByte_of_ne feed]
        exact .cons (noFeed noFeedLine) rest

theorem isLines_iff (bytes : List UInt8) (lines : List (List UInt8)) :
    IsLines bytes lines ↔ byteLines bytes = lines := by
  constructor
  · exact IsLines.byteLines_eq
  · rintro rfl
    induction bytes with
    | nil => exact .nil
    | cons byte bytes ih => exact ih.cons_byte byte

theorem IsLines.lineFeed_not_mem_dropLast {bytes line : List UInt8} {lines : List (List UInt8)}
    (isLines : IsLines bytes lines) (member : line ∈ lines) : lineFeed ∉ line.dropLast := by
  induction isLines with
  | nil => cases member
  | last _ noFeed =>
      obtain rfl := List.mem_singleton.mp member
      exact fun inside => noFeed ((List.dropLast_sublist _).subset inside)
  | cons noFeed _ ih =>
      rcases List.mem_cons.mp member with rfl | inRest
      · rw [List.dropLast_concat]
        exact noFeed
      · exact ih inRest

/-- The body of a line is what stands before the line breaks at its end. -/
def IsBody (line body : List Char) : Prop :=
  (∃ ending, line = body ++ ending ∧ ∀ c ∈ ending, c = '\n' ∨ c = '\r') ∧
    ∀ c ∈ body.getLast?, c ≠ '\n' ∧ c ≠ '\r'

theorem isBody_dropLineEnd (line : List Char) : IsBody line (dropLineEnd line) := by
  let isBreak : Char → Bool := fun c => c == '\n' || c == '\r'
  refine ⟨⟨(line.reverse.takeWhile isBreak).reverse, ?_, ?_⟩, ?_⟩
  · rw [dropLineEnd, ← List.reverse_append, List.takeWhile_append_dropWhile, List.reverse_reverse]
  · intro c member
    have breaks : isBreak c = true :=
      List.all_eq_true.mp List.all_takeWhile c (List.mem_reverse.mp member)
    simpa [isBreak] using breaks
  · intro c isLast
    rw [dropLineEnd, List.getLast?_reverse] at isLast
    have ends := List.head?_dropWhile_not isBreak line.reverse
    rw [Option.mem_def.mp isLast] at ends
    simpa [isBreak] using ends

theorem IsBody.lineFeed_not_mem {text body : List Char} (isBody : IsBody text body)
    (noFeed : lineFeed ∉ (text.flatMap String.utf8EncodeChar).dropLast) : '\n' ∉ body := by
  intro inside
  obtain ⟨⟨ending, rfl, -⟩, noBreak⟩ := isBody
  obtain ⟨before, behind, rfl⟩ := List.append_of_mem inside
  -- The body does not end with the line feed, so a character stands behind it.
  cases behind with
  | nil => exact (noBreak '\n' (by simp)).1 rfl
  | cons c behind =>
      have someByte : (c :: (behind ++ ending)).flatMap String.utf8EncodeChar ≠ [] := by
        rw [List.flatMap_cons]
        exact List.append_ne_nil_of_left_ne_nil String.utf8EncodeChar_ne_nil _
      have parts : (before ++ '\n' :: c :: behind ++ ending).flatMap String.utf8EncodeChar =
          (before.flatMap String.utf8EncodeChar ++ [lineFeed]) ++
            (c :: (behind ++ ending)).flatMap String.utf8EncodeChar := by
        rw [List.append_assoc, List.flatMap_append, List.append_assoc]
        rfl
      rw [parts, List.dropLast_append_of_ne_nil someByte] at noFeed
      exact noFeed (by simp)

end Reckoner
