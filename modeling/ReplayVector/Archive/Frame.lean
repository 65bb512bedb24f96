import ReplayVector.Bytes.Varint

/-!
# Frames

A frame is a length, written as a variable-length number, and that many bytes. `Frame.readAll`
cuts a byte string into frames; the string may also end after the length of a frame whose bytes
have not begun.
-/

namespace ReplayVector.Frame

/-- The longest frame that is read. -/
def limit : UInt64 := 128 * 1024 * 1024

/-- The frame of some bytes. -/
def write (data : Bytes) : Bytes := Varint.encode data.length ++ data

/-- What stands at the front of a byte string. -/
inductive Step where
  | frame (data rest : Bytes)
  /-- No frame begins here. -/
  | finished
  /-- What begins here is no whole frame. -/
  | broken

/-- Reads the frame at the front of a byte string. -/
def read (bs : Bytes) : Step :=
  match Varint.decode bs with
  | .invalid => .broken
  | .incomplete => if bs.isEmpty then .finished else .broken
  | .value size rest =>
    if size > limit then .broken
    else
      match Bytes.take? size.toNat rest with
      | some (data, rest) => .frame data rest
      | none => if rest.isEmpty then .finished else .broken

theorem decodeFrom_length {index acc : Nat} {bs rest : Bytes} {n : UInt64}
    (h : Varint.decodeFrom index acc bs = .value n rest) : rest.length < bs.length := by
  induction bs generalizing index acc with
  | nil => simp [Varint.decodeFrom] at h
  | cons b bs ih =>
    simp only [Varint.decodeFrom] at h
    split at h
    · split at h
      · simp at h
      · simp only [Varint.Decoded.value.injEq] at h
        simp [← h.2]
    · split at h
      · simp at h
      · have := ih h
        simp only [List.length_cons]
        omega

/-- A frame takes up at least its length. -/
theorem length_lt_of_read {bs data rest : Bytes} (h : read bs = .frame data rest) :
    rest.length < bs.length := by
  unfold read at h
  split at h
  · simp at h
  · split at h <;> simp at h
  · next size tail hv =>
    split at h
    · simp at h
    · split at h
      · next data' rest' ht =>
        simp only [Step.frame.injEq] at h
        have := (Bytes.eq_append_of_take? ht).1
        have := decodeFrom_length hv
        simp_all
        omega
      · split at h <;> simp at h

/-- The frames of a byte string, and whether it ends where a frame may begin. -/
def readAll (bs : Bytes) : List Bytes × Bool :=
  match _h : read bs with
  | .finished => ([], true)
  | .broken => ([], false)
  | .frame data rest =>
    let (frames, whole) := readAll rest
    (data :: frames, whole)
termination_by bs.length
decreasing_by exact length_lt_of_read _h

end ReplayVector.Frame
