/-! # Sinks

A sink keeps the bytes that are written to it. It may have room for only so many; what
is written beyond is lost, and the writer is told.
-/

namespace Reckoner

structure Sink where
  written : ByteArray := .empty
  /-- How many more bytes fit, or no bound. -/
  room : Option Nat := none

namespace Sink

/-- Do so many bytes fit? -/
def accepts (sink : Sink) (size : Nat) : Bool :=
  match sink.room with
  | none => true
  | some room => size ≤ room

/-- The sink after a write. As much is taken as fits. -/
def write (sink : Sink) (bytes : ByteArray) : Sink :=
  match sink.room with
  | none => { sink with written := sink.written ++ bytes }
  | some room => ⟨sink.written ++ bytes.extract 0 room, some (room - bytes.size)⟩

theorem extract_of_le {bytes : ByteArray} {room : Nat} (fits : bytes.size ≤ room) :
    bytes.extract 0 room = bytes := by
  apply ByteArray.ext
  rw [ByteArray.data_extract]
  exact Array.extract_eq_self_of_le fits

@[simp] theorem write_write (sink : Sink) (first second : ByteArray) :
    (sink.write first).write second = sink.write (first ++ second) := by
  obtain ⟨written, room⟩ := sink
  cases room with
  | none => simp [write, ByteArray.append_assoc]
  | some room =>
      simp [write, ByteArray.append_assoc, ByteArray.extract_append, ByteArray.size_append,
        Nat.sub_add_eq]

@[simp] theorem write_empty (sink : Sink) : sink.write .empty = sink := by
  obtain ⟨written, room⟩ := sink
  cases room with
  | none => simp [write]
  | some room =>
      have nothing : ByteArray.empty.extract 0 room = .empty := extract_of_le (Nat.zero_le room)
      simp [write, nothing]

theorem write_of_le {written bytes : ByteArray} {room : Nat} (fits : bytes.size ≤ room) :
    (Sink.mk written (some room)).write bytes =
      ⟨written ++ bytes, some (room - bytes.size)⟩ := by
  simp only [write, extract_of_le fits]

theorem write_of_lt {written bytes : ByteArray} {room : Nat} (tooLong : room < bytes.size) :
    (Sink.mk written (some room)).write bytes =
      ⟨written ++ bytes.extract 0 room, some 0⟩ := by
  simp only [write, Nat.sub_eq_zero_of_le (Nat.le_of_lt tooLong)]

@[simp] theorem accepts_zero (sink : Sink) : sink.accepts 0 = true := by
  unfold accepts
  split <;> simp

theorem accepts_add (sink : Sink) (first : ByteArray) (size : Nat) :
    sink.accepts (first.size + size) =
      (sink.accepts first.size && (sink.write first).accepts size) := by
  obtain ⟨written, room⟩ := sink
  cases room with
  | none => rfl
  | some room =>
      simp only [accepts, write]
      rw [← Bool.decide_and, decide_eq_decide]
      omega

/-- Nothing more is taken once a write has failed. -/
theorem write_append_of_not_accepts {sink : Sink} {first : ByteArray}
    (full : sink.accepts first.size = false) (second : ByteArray) :
    sink.write (first ++ second) = sink.write first := by
  obtain ⟨written, room⟩ := sink
  cases room with
  | none => cases full
  | some room =>
      have tooLong : room < first.size := by simpa [accepts] using full
      have noneLeft : room - first.size = 0 := by omega
      simp [write, ByteArray.extract_append, ByteArray.size_append, Nat.sub_add_eq, noneLeft]

end Sink

end Reckoner
