import RegistryText.Source

/-!
# What a source gives in spite of its failures

A source whose reads fail now and then still gives bytes.  Its *content* is what its reads
give in front of the first empty one, whatever fails in between, and its *messages* are those
of the failures on the way.  The source *without failures* has the same data in the same
pieces and nothing else.

`answers_read` is what one read does to these: it takes a message, or a beginning of the
content, or it is empty and nothing of either is left.  **The source without failures answers
every read that succeeds in the same way** (`read_withoutFailures`), and does not notice one
that fails (`withoutFailures_of_failed_read`).
-/

namespace RegistryText

/-- Whether a segment is data. -/
def Segment.isData : Segment → Bool
  | data _ => true
  | interruption | failure _ => false

namespace Source

/-- The bytes in front of the first empty read. -/
def contentOf (chunk : Option Nat) : List Segment → Bytes
  | [] => []
  | .data bytes :: rest =>
      if bytes = [] ∨ chunk = some 0 then [] else bytes ++ contentOf chunk rest
  | .interruption :: rest | .failure _ :: rest => contentOf chunk rest

/-- The messages of the failures in front of the first empty read. -/
def messagesOf (chunk : Option Nat) : List Segment → List Text
  | [] => []
  | .data bytes :: rest => if bytes = [] ∨ chunk = some 0 then [] else messagesOf chunk rest
  | .interruption :: rest => messagesOf chunk rest
  | .failure message :: rest => message :: messagesOf chunk rest

/-- The bytes that the source gives in front of its first empty read. -/
def content (source : Source) : Bytes :=
  contentOf source.chunk source.segments

/-- The messages of the failures of the source in front of its first empty read. -/
def messages (source : Source) : List Text :=
  messagesOf source.chunk source.segments

/-- The source without its failures and interruptions. -/
def withoutFailures (source : Source) : Source :=
  { source with segments := source.segments.filter Segment.isData }

/-- What a read does to the content and the messages of a source. -/
inductive Answers (source : Source) : Except Text Bytes → Source → Prop
  | failure {message : Text} {rest : Source}
      (messages_eq : source.messages = message :: rest.messages)
      (content_eq : source.content = rest.content) : Answers source (.error message) rest
  | empty {rest : Source} (messages_eq : source.messages = []) (content_eq : source.content = []) :
      Answers source (.ok []) rest
  | piece {given : Bytes} {rest : Source} (hgiven : given ≠ [])
      (messages_eq : source.messages = rest.messages)
      (content_eq : source.content = given ++ rest.content) : Answers source (.ok given) rest

/-- An interruption is not seen. -/
theorem Answers.interruption {segments : List Segment} {chunk : Option Nat}
    {answer : Except Text Bytes} {rest : Source} (h : Answers ⟨segments, chunk⟩ answer rest) :
    Answers ⟨.interruption :: segments, chunk⟩ answer rest := by
  cases h with
  | failure messages_eq content_eq => exact .failure messages_eq content_eq
  | empty messages_eq content_eq => exact .empty messages_eq content_eq
  | piece hgiven messages_eq content_eq => exact .piece hgiven messages_eq content_eq

variable {source rest : Source} {count : Nat}

/-- What a read asks of the segments. -/
def asked (source : Source) (count : Nat) : Nat :=
  match source.chunk with
  | none => count
  | some most => if most < count then most else count

theorem read_eq (source : Source) (count : Nat) : source.read count =
    ((readSegments (source.asked count) source.segments).1,
      { source with segments := (readSegments (source.asked count) source.segments).2 }) :=
  rfl

theorem asked_eq_zero_iff (hcount : 0 < count) :
    source.asked count = 0 ↔ source.chunk = some 0 := by
  unfold asked
  cases source.chunk with
  | none => simp; omega
  | some most =>
      simp only [Option.some.injEq]
      split <;> omega

/-- **A read takes a message or a beginning of the content, or it is empty.** -/
theorem answers_read (source : Source) (hcount : 0 < count) :
    source.Answers (source.read count).1 (source.read count).2 := by
  obtain ⟨segments, chunk⟩ := source
  have hasked : asked ⟨segments, chunk⟩ count = 0 ↔ chunk = some 0 := asked_eq_zero_iff hcount
  rw [read_eq]
  generalize asked ⟨segments, chunk⟩ count = n at hasked
  induction segments with
  | nil => exact .empty rfl rfl
  | cons segment segments ih =>
      cases segment with
      | failure message => exact .failure rfl rfl
      | interruption => exact ih.interruption
      | data bytes =>
          have hnothing : bytes.take n = [] ↔ bytes = [] ∨ chunk = some 0 := by
            rw [List.take_eq_nil_iff, hasked, or_comm]
          by_cases hnone : bytes = [] ∨ chunk = some 0
          · show Answers _ (.ok (bytes.take n)) _
            rw [hnothing.mpr hnone]
            exact .empty (if_pos hnone) (if_pos hnone)
          · have hchunk : chunk ≠ some 0 := (not_or.mp hnone).2
            refine .piece (mt hnothing.mp hnone) ?_ ?_
            · refine (if_neg hnone).trans ?_
              by_cases hleft : bytes.drop n = []
              · simp [messages, readSegments, hleft]
              · simp [messages, messagesOf, readSegments, hleft, hchunk]
            · refine (if_neg hnone).trans ?_
              by_cases hleft : bytes.drop n = []
              · have hall : bytes.take n = bytes := by
                  simpa [hleft] using List.take_append_drop n bytes
                simp [content, readSegments, hleft, hall]
              · have hcut : bytes.take n ++ (bytes.drop n ++ contentOf chunk segments) =
                    bytes ++ contentOf chunk segments := by
                  rw [← List.append_assoc, List.take_append_drop]
                simp [content, contentOf, readSegments, hleft, hchunk, hcut]

/-! ### The source without failures -/

/-- A read that succeeds gives the same without the failures. -/
theorem read_withoutFailures {given : Bytes} (h : source.read count = (.ok given, rest)) :
    source.withoutFailures.read count = (.ok given, rest.withoutFailures) := by
  obtain ⟨segments, chunk⟩ := source
  rw [read_eq] at h ⊢
  rw [show asked (withoutFailures ⟨segments, chunk⟩) count = asked ⟨segments, chunk⟩ count from rfl]
  generalize asked ⟨segments, chunk⟩ count = n at h
  induction segments with
  | nil =>
      cases h
      rfl
  | cons segment segments ih =>
      cases segment with
      | failure message => cases h
      | interruption => exact ih h
      | data bytes =>
          cases h
          simp only [withoutFailures, List.filter_cons, Segment.isData, if_true, readSegments]
          split <;> rfl

/-- The source without failures does not notice a read that fails. -/
theorem withoutFailures_of_failed_read {message : Text}
    (h : source.read count = (.error message, rest)) :
    rest.withoutFailures = source.withoutFailures := by
  obtain ⟨segments, chunk⟩ := source
  rw [read_eq] at h
  generalize asked ⟨segments, chunk⟩ count = n at h
  induction segments with
  | nil => cases h
  | cons segment segments ih =>
      cases segment with
      | failure message' =>
          cases h
          rfl
      | interruption => exact ih h
      | data bytes => cases h

end Source

end RegistryText
