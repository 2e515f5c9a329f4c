import RegistryText.Text.Basic

/-!
# Sources of bytes

A source is what is left of an input: a finite list of segments, each of which
is data, an interruption or a failure.  One read takes bytes from one segment
only, at most as many as were asked for and at most as many as the source gives
at a time.  **An interrupted read is made again**, a failure is reported once,
and an empty read is the end of the input.

A segment of no data gives one empty read, so what stands behind it is reached
only by a reader that reads on after the end.
-/

namespace RegistryText

/-- A part of an input. -/
inductive Segment where
  /-- Bytes that can be read. -/
  | data (bytes : Bytes)
  /-- A read that is interrupted. -/
  | interruption
  /-- A read that fails with a message. -/
  | failure (message : Text)
  deriving DecidableEq, Repr

/-- What is left of an input. -/
structure Source where
  /-- The segments that have not been read. -/
  segments : List Segment
  /-- The greatest number of bytes that one read gives, if there is one. -/
  chunk : Option Nat
  deriving DecidableEq, Repr

namespace Source

/-- A source of one segment of data. -/
def ofBytes (bytes : Bytes) : Source :=
  ⟨[.data bytes], none⟩

/-- Read up to `count` bytes from the first segment that is no interruption. -/
def readSegments (count : Nat) : List Segment → Except Text Bytes × List Segment
  | [] => (.ok [], [])
  | .interruption :: rest => readSegments count rest
  | .failure message :: rest => (.error message, rest)
  | .data bytes :: rest =>
      let left := bytes.drop count
      (.ok (bytes.take count), if left.isEmpty then rest else .data left :: rest)

/-- Read up to `count` bytes. -/
def read (source : Source) (count : Nat) : Except Text Bytes × Source :=
  let count := match source.chunk with
    | none => count
    | some most => if most < count then most else count
  let r := readSegments count source.segments
  (r.1, { source with segments := r.2 })

/-- The number of bytes and failures in segments. -/
def sizeOf : List Segment → Nat
  | [] => 0
  | .data bytes :: rest => bytes.length + sizeOf rest
  | .interruption :: rest => sizeOf rest
  | .failure _ :: rest => 1 + sizeOf rest

/-- The number of bytes and failures left. -/
def size (source : Source) : Nat :=
  sizeOf source.segments

theorem sizeOf_readSegments {count : Nat} {segments rest : List Segment}
    {bytes : Bytes} (h : readSegments count segments = (.ok bytes, rest)) :
    sizeOf rest + bytes.length = sizeOf segments := by
  induction segments with
  | nil => cases h; rfl
  | cons segment segments ih =>
      cases segment with
      | interruption => exact ih h
      | failure message => cases h
      | data left =>
          cases h
          split
          next hempty =>
            have hle : left.length ≤ count := by simpa using hempty
            simp [sizeOf, Nat.min_eq_right hle, Nat.add_comm]
          · simp only [sizeOf, List.length_drop, List.length_take]
            omega

theorem sizeOf_failed_readSegments {count : Nat} {segments rest : List Segment}
    {message : Text} (h : readSegments count segments = (.error message, rest)) :
    sizeOf rest < sizeOf segments := by
  induction segments with
  | nil => cases h
  | cons segment segments ih =>
      cases segment with
      | interruption => exact ih h
      | failure message => cases h; simp [sizeOf]
      | data left => cases h

/-- A read takes away what it gives. -/
theorem size_read {source rest : Source} {count : Nat} {bytes : Bytes}
    (h : source.read count = (.ok bytes, rest)) :
    rest.size + bytes.length = source.size := by
  simp only [read, Prod.mk.injEq] at h
  obtain ⟨h1, rfl⟩ := h
  exact sizeOf_readSegments (Prod.ext h1 rfl)

/-- A failing read takes the failure away. -/
theorem size_failed_read {source rest : Source} {count : Nat} {message : Text}
    (h : source.read count = (.error message, rest)) : rest.size < source.size := by
  simp only [read, Prod.mk.injEq] at h
  obtain ⟨h1, rfl⟩ := h
  exact sizeOf_failed_readSegments (Prod.ext h1 rfl)

end Source

end RegistryText
