import RegistryText.Proofs.Lines.Complete
import RegistryText.Proofs.Lines.Listed

/-!
# Sources that break

A source breaks behind a list of bytes when its reads give these bytes, in pieces of any
sizes of which none is empty, and the next one fails; interruptions may stand anywhere.
What stands behind the failure does not matter.

**A reader of such a source gives the complete lines of the bytes and then the failure**
(`next_of_breaksBehind`).  Half a unit, a line without an end and a carriage return in the
last unit are not given, since what follows them is not known.
-/

namespace RegistryText

/-- Whether a segment is a failure. -/
def Segment.isFailure : Segment → Bool
  | failure _ => true
  | data _ | interruption => false

/-- The number of failures in an answer. -/
def failuresIn {α : Type} : Except Text α → Nat
  | .ok _ => 0
  | .error _ => 1

namespace Source

/-- Segments of which the reads give `bytes` and the next one fails. -/
inductive SegmentsBreak (message : Text) : List Segment → Bytes → Prop
  | failure (rest : List Segment) : SegmentsBreak message (.failure message :: rest) []
  | interruption {rest : List Segment} {bytes : Bytes}
      (tail : SegmentsBreak message rest bytes) :
      SegmentsBreak message (.interruption :: rest) bytes
  | data {front bytes : Bytes} {rest : List Segment} (hfront : front ≠ [])
      (tail : SegmentsBreak message rest bytes) :
      SegmentsBreak message (.data front :: rest) (front ++ bytes)

/-- A source that delivers `bytes` before its first failure, whose message is `message`;
every read may give at least one. -/
structure Breaks (source : Source) (message : Text) (bytes : Bytes) : Prop where
  segments : SegmentsBreak message source.segments bytes
  chunk : source.chunk ≠ some 0

variable {source rest : Source} {message : Text} {bytes given : Bytes} {count : Nat}

/-- What one read takes of the bytes in front of a failure. -/
theorem SegmentsBreak.readSegments {segments : List Segment}
    (h : SegmentsBreak message segments bytes) (hcount : 0 < count) :
    (bytes = [] ∧ ∃ rest, Source.readSegments count segments = (.error message, rest)) ∨
      ∃ given left rest, Source.readSegments count segments = (.ok given, rest) ∧
        bytes = given ++ left ∧ given.length ≤ count ∧ given ≠ [] ∧
        SegmentsBreak message rest left := by
  induction h with
  | failure rest => exact Or.inl ⟨rfl, rest, rfl⟩
  | interruption tail ih => simpa only [Source.readSegments] using ih
  | @data front bytes rest hfront tail ih =>
      obtain ⟨given, left, hread, rfl, hlength, hgiven⟩ := readSegments_data hfront hcount rest
      refine Or.inr ⟨given, left ++ bytes, _, hread, List.append_assoc .., hlength, hgiven, ?_⟩
      by_cases hleft : left = []
      · simpa [hleft] using tail
      · simpa [hleft] using SegmentsBreak.data hleft tail

/-- What one read takes of the bytes in front of a failure. -/
theorem Breaks.read (h : source.Breaks message bytes) (hcount : 0 < count) :
    (bytes = [] ∧ ∃ rest, source.read count = (.error message, rest)) ∨
      ∃ given left rest, source.read count = (.ok given, rest) ∧ bytes = given ++ left ∧
        given.length ≤ count ∧ given ≠ [] ∧ rest.Breaks message left := by
  obtain ⟨asked, hasked, hle, heq⟩ := exists_asked h.chunk hcount
  rcases h.segments.readSegments hasked with ⟨hbytes, rest, hread⟩ |
    ⟨given, left, rest, hread, hbytes, hlength, hgiven, hrest⟩
  · exact Or.inl ⟨hbytes, _, by rw [heq, hread]⟩
  · exact Or.inr ⟨given, left, { source with segments := rest }, by rw [heq, hread], hbytes,
      Nat.le_trans hlength hle, hgiven, hrest, h.chunk⟩

/-- The number of failures left. -/
def failures (source : Source) : Nat :=
  source.segments.countP Segment.isFailure

theorem countP_readSegments {segments rest : List Segment} {answer : Except Text Bytes}
    (h : readSegments count segments = (answer, rest)) :
    segments.countP Segment.isFailure = rest.countP Segment.isFailure + failuresIn answer := by
  induction segments with
  | nil =>
      cases h
      rfl
  | cons segment segments ih =>
      cases segment with
      | interruption => exact ih h
      | failure message =>
          cases h
          exact List.countP_cons_of_pos rfl
      | data left =>
          cases h
          split <;> simp [Segment.isFailure, failuresIn]

/-- A read takes no failure away unless it fails. -/
theorem failures_read {answer : Except Text Bytes} (h : source.read count = (answer, rest)) :
    source.failures = rest.failures + failuresIn answer := by
  simp only [read, Prod.mk.injEq] at h
  obtain ⟨hanswer, rfl⟩ := h
  exact countP_readSegments (Prod.ext hanswer rfl)

end Source

/-- Units in which no end of a line is found have no complete line. -/
theorem LineEnd.completeLines_of_find? {i : Nat} {units : List UInt16}
    (h : find? false i units = none) : completeLines carriageReturn lineFeed units = [] := by
  induction units generalizing i with
  | nil => rfl
  | cons u rest ih =>
      unfold find? at h
      split at h
      · cases h
      next hlf =>
        split at h
        · cases rest with
          | nil => exact if_neg hlf
          | cons v rest => cases h
        next hcr =>
          cases rest with
          | nil => exact if_neg hlf
          | cons v rest => simp [completeLines, hlf, hcr, ih h]

namespace LineReader

/-- The reader has read a beginning of `units`, and its source delivers the bytes of the
others and then breaks. -/
structure BreaksBehind (r : LineReader) (message : Text) (units : List UInt16) : Prop where
  atEnd : r.atEnd = false
  ahead : ∃ source bytes, r.source = some source ∧ source.Breaks message bytes ∧
    r.Holds bytes units

variable {r : LineReader} {message : Text} {units : List UInt16}

/-- A search that finds nothing in what a reader holds finds no complete line. -/
theorem Holds.completeLines_pending {bytes : Bytes} (h : r.Holds bytes units)
    (hopen : r.atEnd = false) (hend : r.lineEnd? = none) :
    completeLines carriageReturn lineFeed r.pending = [] := by
  rw [lineEnd?, hopen] at hend
  rw [← List.take_append_drop r.scanned r.pending]
  exact completeLines_append_of_nil h.endFree (LineEnd.completeLines_of_find? hend)

/-- A reader without a complete line reads on until its source breaks. -/
theorem BreaksBehind.fill {source : Source} (h : r.BreaksBehind message units)
    (hsource : r.source = some source) (hend : r.lineEnd? = none) :
    (completeLines carriageReturn lineFeed units = [] ∧
        ∃ r', r.fill source = (some message, r')) ∨
      ∃ r', r.fill source = (none, r') ∧ r'.BreaksBehind message units ∧
        r'.lineNumber = r.lineNumber ∧ r'.encoding = r.encoding ∧ r'.page = r.page := by
  obtain ⟨source', bytes, hsource', hbreaks, hholds⟩ := h.ahead
  obtain rfl : source = source' := by simpa [hsource] using hsource'
  rcases hbreaks.read r.request_makeRoom_pos with ⟨rfl, rest, hread⟩ |
    ⟨given, left, rest, hread, rfl, -, hgiven, hrest⟩
  · have hunits : units = r.pending := by simpa [hholds.half] using hholds.units_eq
    refine Or.inl ⟨?_, _, by rw [LineReader.fill, hread]; rfl⟩
    rw [hunits]
    exact hholds.completeLines_pending h.atEnd hend
  · refine Or.inr ⟨(r.makeRoom.receive (.ok given, rest)).2, by rw [LineReader.fill, hread]; rfl,
      ⟨?_, rest, left, rfl, hrest, hholds.receive hend rest⟩, rfl, rfl, rfl⟩
    simpa [receive, append, makeRoom, h.atEnd] using hgiven

/-- A line whose end has been read is the first complete one. -/
theorem BreaksBehind.advance {e : LineEnd} (h : r.BreaksBehind message units)
    (hend : r.lineEnd? = some e) :
    ∃ rest, completeLines carriageReturn lineFeed units =
        r.pending.take e.stop :: completeLines carriageReturn lineFeed rest ∧
      (r.advance e.next).BreaksBehind message rest := by
  obtain ⟨source, bytes, hsource, hbreaks, hholds⟩ := h.ahead
  refine ⟨_, ?_, h.atEnd, source, bytes, hsource, hbreaks, hholds.advance e.next⟩
  let more := (r.encoding.wholeUnits (r.half.toList ++ bytes)).1
  have hlines : linesOf carriageReturn lineFeed (r.pending ++ (more ++ [lineFeed])) = _ :=
    hholds.linesOf_of_lineEnd hend (by simp [h.atEnd])
  rw [hholds.units_eq, completeLines_eq, completeLines_eq, List.append_assoc, hlines,
    List.append_assoc, List.dropLast_cons_of_ne_nil (linesOf_ne_nil (by simp))]

/-- **What the next line is in front of a failure.**  A reader without a complete line
answers with the failure; every other one gives the first complete line. -/
theorem next_of_breaksBehind (h : r.BreaksBehind message units) :
    (completeLines carriageReturn lineFeed units = [] ∧ ∃ r', r.next = (.error message, r')) ∨
      ∃ line rest r', completeLines carriageReturn lineFeed units =
          line :: completeLines carriageReturn lineFeed rest ∧
        r.next = (.ok (some (r.encoding.decodeUnits r.page line)), r') ∧
        r'.BreaksBehind message rest ∧ r'.lineNumber = r.lineNumber + 1 ∧
        r'.encoding = r.encoding ∧ r'.page = r.page := by
  fun_induction next r with
  | case1 r hclosed =>
      obtain ⟨source, bytes, hsource, -⟩ := h.ahead
      simp [hclosed] at hsource
  | case2 r source hsource e hend =>
      obtain ⟨rest, hlines, hrest⟩ := h.advance hend
      exact Or.inr ⟨_, rest, _, hlines, rfl, hrest, rfl, rfl, rfl⟩
  | case3 r source hsource hend hatEnd hempty | case4 r source hsource hend hatEnd hempty =>
      rw [h.atEnd] at hatEnd
      cases hatEnd
  | case5 r source hsource hend hopen message' r' hfill =>
      rcases h.fill hsource hend with ⟨hnone, r'', hfill'⟩ | ⟨r'', hfill', -⟩ <;>
        rw [hfill] at hfill' <;> cases hfill'
      exact Or.inl ⟨hnone, r', rfl⟩
  | case6 r source hsource hend hopen r' hfill hless ih =>
      rcases h.fill hsource hend with ⟨-, r'', hfill'⟩ |
        ⟨r'', hfill', hbreaks, hnumber, hencoding, hpage⟩ <;>
        rw [hfill] at hfill' <;> cases hfill'
      simpa [hnumber, hencoding, hpage] using ih hbreaks

/-- The number of failures left in the source. -/
def failures (r : LineReader) : Nat :=
  match r.source with
  | none => 0
  | some source => source.failures

theorem failures_fill {r' : LineReader} {source : Source} {answer : Option Text}
    (hsource : r.source = some source) (h : r.fill source = (answer, r')) :
    r.failures = r'.failures + answer.toList.length := by
  rw [fill] at h
  rcases hread : source.read r.makeRoom.request with ⟨given, rest⟩
  have hcount := Source.failures_read hread
  rw [hread] at h
  simp only [failures, hsource]
  cases given <;> cases h <;> exact hcount

/-- A failure is taken away by the answer that reports it, and by no line. -/
theorem failures_next {r' : LineReader} {answer : Except Text (Option Text)}
    (h : r.next = (answer, r')) : r'.failures + failuresIn answer ≤ r.failures ∧
      ∀ line, answer = .ok (some line) → r'.failures = r.failures := by
  fun_induction next r with
  | case1 r hclosed =>
      cases h
      exact ⟨Nat.le_refl _, by simp⟩
  | case2 r source hsource e hend | case4 r source hsource hend hatEnd hempty =>
      cases h
      exact ⟨Nat.le_refl _, fun _ _ => rfl⟩
  | case3 r source hsource hend hatEnd hempty =>
      cases h
      exact ⟨Nat.zero_le _, by simp⟩
  | case5 r source hsource hend hopen message r'' hfill =>
      cases h
      rw [failures_fill hsource hfill]
      exact ⟨Nat.le_refl _, by simp⟩
  | case6 r source hsource hend hopen r'' hfill hless ih =>
      rw [failures_fill hsource hfill]
      exact ih h

/-- The reader gives the lines `left` and then fails, and that is the first of the `count`
failures in front of it. -/
def GivesBefore (message : Text) (count : Nat) (r : LineReader) (left : List Text) : Prop :=
  r.failures = count ∧ ∃ units, r.BreaksBehind message units ∧ left =
    (completeLines carriageReturn lineFeed units).map (r.encoding.decodeUnits r.page)

end LineReader

/-- A relation between a supply and the lines that it gives before it fails.  `Open` holds
until then, and never again. -/
structure LineSupply.FailsBehind {ρ : Type} [LineSupply ρ] (message : Text) (Open : ρ → Prop)
    (G : ρ → List Text → Prop) : Prop where
  isOpen : ∀ {lines left}, G lines left → Open lines
  back : ∀ {lines}, Open (LineSupply.next lines).2 → Open lines
  line : ∀ {lines line left}, G lines (line :: left) → ∃ rest,
    LineSupply.next lines = (.ok (some line), rest) ∧ G rest left ∧
      LineSupply.lineNumber rest = LineSupply.lineNumber lines + 1
  failure : ∀ {lines}, G lines [] → ∃ rest,
    LineSupply.next lines = (.error message, rest) ∧ ¬Open rest

/-- **A line reader whose source breaks gives the complete lines and then fails.** -/
theorem LineReader.failsBehind (message : Text) (count : Nat) :
    LineSupply.FailsBehind message (fun r : LineReader => count ≤ r.failures)
      (GivesBefore message count) where
  isOpen h := Nat.le_of_eq h.1.symm
  back {r} hopen := Nat.le_trans hopen (Nat.le_of_add_right_le (failures_next (r := r) rfl).1)
  line := by
    rintro r line left ⟨hcount, units, hbreaks, hleft⟩
    rcases next_of_breaksBehind hbreaks with ⟨hnone, -⟩ |
      ⟨first, rest, r', hlines, hnext, hrest, hnumber, hencoding, hpage⟩
    · rw [hnone] at hleft
      cases hleft
    · rw [hlines] at hleft
      cases hleft
      refine ⟨r', hnext, ⟨((failures_next hnext).2 _ rfl).trans hcount, rest, hrest, ?_⟩, hnumber⟩
      rw [hencoding, hpage]
  failure := by
    rintro r ⟨hcount, units, hbreaks, hleft⟩
    rcases next_of_breaksBehind hbreaks with ⟨-, r', hnext⟩ | ⟨first, rest, r', hlines, -⟩
    · refine ⟨r', hnext, ?_⟩
      have hless : r'.failures + 1 ≤ r.failures := (failures_next hnext).1
      omega
    · rw [hlines] at hleft
      cases hleft

end RegistryText
