import RegistryText.Source

/-!
# Sources that deliver bytes

A source delivers a list of bytes when its reads give these bytes, in pieces of
any sizes of which none is empty, and then an empty one; interruptions may
stand anywhere, failures nowhere.  What stands behind the empty read is never
looked at.

`Delivers.read` is all that a reader needs to know of such a source: **a read
that asks for something takes a beginning of the bytes, and an empty one only
at their end.**
-/

namespace RegistryText

namespace Source

/-- Segments of which the reads give `bytes` and then nothing. -/
inductive SegmentsDeliver : List Segment → Bytes → Prop
  | ended : SegmentsDeliver [] []
  | emptyRead (rest : List Segment) : SegmentsDeliver (.data [] :: rest) []
  | interruption {rest : List Segment} {bytes : Bytes}
      (tail : SegmentsDeliver rest bytes) : SegmentsDeliver (.interruption :: rest) bytes
  | data {front bytes : Bytes} {rest : List Segment} (hfront : front ≠ [])
      (tail : SegmentsDeliver rest bytes) : SegmentsDeliver (.data front :: rest) (front ++ bytes)

/-- A source that delivers `bytes`; every read may give at least one. -/
structure Delivers (source : Source) (bytes : Bytes) : Prop where
  segments : SegmentsDeliver source.segments bytes
  chunk : source.chunk ≠ some 0

/-- A source of one segment delivers its bytes. -/
theorem delivers_ofBytes (bytes : Bytes) : (ofBytes bytes).Delivers bytes := by
  refine ⟨?_, by simp [ofBytes]⟩
  by_cases h : bytes = []
  · subst h
    exact .emptyRead []
  · simpa [ofBytes] using SegmentsDeliver.data h .ended

/-- A read takes a beginning of the piece that comes first and leaves the rest of it. -/
theorem readSegments_data {front : Bytes} {count : Nat} (hfront : front ≠ []) (hcount : 0 < count)
    (segments : List Segment) :
    ∃ given left, readSegments count (.data front :: segments) =
        (.ok given, if left = [] then segments else .data left :: segments) ∧
      front = given ++ left ∧ given.length ≤ count ∧ given ≠ [] := by
  refine ⟨front.take count, front.drop count, ?_, (List.take_append_drop ..).symm, ?_, ?_⟩
  · simp [readSegments]
  · rw [List.length_take]
    exact Nat.min_le_left _ _
  · intro hempty
    rcases List.take_eq_nil_iff.mp hempty with hzero | hnil
    · omega
    · exact hfront hnil

/-- What one read takes of the bytes that segments deliver. -/
theorem SegmentsDeliver.readSegments {segments : List Segment} {bytes : Bytes} {count : Nat}
    (h : SegmentsDeliver segments bytes) (hcount : 0 < count) :
    ∃ given left rest, Source.readSegments count segments = (.ok given, rest) ∧
      bytes = given ++ left ∧ given.length ≤ count ∧
      (given = [] → left = []) ∧ (given ≠ [] → SegmentsDeliver rest left) := by
  induction h with
  | ended => exact ⟨[], [], [], rfl, rfl, Nat.zero_le _, fun _ => rfl, fun h => absurd rfl h⟩
  | emptyRead rest =>
      exact ⟨[], [], rest, by simp [Source.readSegments], rfl, Nat.zero_le _, fun _ => rfl,
        fun h => absurd rfl h⟩
  | interruption tail ih => simpa only [Source.readSegments] using ih
  | @data front bytes rest hfront tail ih =>
      obtain ⟨given, left, hread, rfl, hlength, hgiven⟩ := readSegments_data hfront hcount rest
      refine ⟨given, left ++ bytes, _, hread, List.append_assoc .., hlength,
        fun hempty => absurd hempty hgiven, fun _ => ?_⟩
      by_cases hleft : left = []
      · simpa [hleft] using tail
      · simpa [hleft] using SegmentsDeliver.data hleft tail

/-- A source asks its segments for something if it is asked for something. -/
theorem exists_asked {source : Source} {count : Nat} (hchunk : source.chunk ≠ some 0)
    (hcount : 0 < count) : ∃ asked, 0 < asked ∧ asked ≤ count ∧
      source.read count = ((readSegments asked source.segments).1,
        { source with segments := (readSegments asked source.segments).2 }) := by
  cases hmost : source.chunk with
  | none => exact ⟨count, hcount, Nat.le_refl _, by simp [Source.read, hmost]⟩
  | some most =>
      have hpos : most ≠ 0 := fun hzero => hchunk (by rw [hmost, hzero])
      refine ⟨if most < count then most else count, ?_, ?_, by simp [Source.read, hmost]⟩
      · split <;> omega
      · split <;> omega

/-- What one read takes of the bytes that a source delivers. -/
theorem Delivers.read {source : Source} {bytes : Bytes} {count : Nat}
    (h : source.Delivers bytes) (hcount : 0 < count) :
    ∃ given left rest, source.read count = (.ok given, rest) ∧ bytes = given ++ left ∧
      given.length ≤ count ∧ (given = [] → left = []) ∧ (given ≠ [] → rest.Delivers left) := by
  obtain ⟨asked, hasked, hle, heq⟩ := exists_asked h.chunk hcount
  obtain ⟨given, left, rest, hread, hbytes, hlength, hempty, hrest⟩ :=
    h.segments.readSegments hasked
  refine ⟨given, left, { source with segments := rest }, by rw [heq, hread], hbytes,
    Nat.le_trans hlength hle, hempty, fun hgiven => ⟨hrest hgiven, h.chunk⟩⟩

end Source

end RegistryText
