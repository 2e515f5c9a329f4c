import RegistryText.Lines.Sized
import RegistryText.Proofs.Lines.Growth
import RegistryText.Proofs.Lines.Listed
import RegistryText.Proofs.Lines.PlainSplit

/-!
# Line readers whose buffer fits

What has been shown of line readers so far took numbers as they are.  A machine computes in
words, which wrap, and has no buffer of more than `maxBufferBytes` bytes.

**A reader whose first buffer a machine can have behaves as it should**: it equals the plain
split (`sized_splitsInto`), and its buffer grows safely (`sized_growsSafely`).  Its reads ask for
what they would ask for without words, as long as no line has 2^60 units, which is more than any
memory holds (`readsInWords_of_unread`); so its calls are the same in words
(`callsInWords_append`).

With a larger buffer it does not.  In wide text 2^63 + 1 units wrap to a buffer of two bytes and
to a request of none, and the input seems to be empty; of 2^62 units there is no buffer.
-/

namespace RegistryText

/-- The content of a source is what it delivers. -/
theorem Source.Delivers.content_eq {source : Source} {bytes : Bytes} (h : source.Delivers bytes) :
    source.content = bytes := by
  obtain ⟨segments, chunk⟩ := source
  have hsegments : Source.SegmentsDeliver segments bytes := h.segments
  have hchunk : chunk ≠ some 0 := h.chunk
  show Source.contentOf chunk segments = bytes
  clear h
  induction hsegments with
  | ended => rfl
  | emptyRead rest => exact if_pos (Or.inl rfl)
  | interruption tail ih => exact ih
  | data hfront tail ih => rw [Source.contentOf, if_neg (not_or.mpr ⟨hfront, hchunk⟩), ih]

namespace LineReader

variable {r s start : LineReader} {source : Source} {first : Capacity} {n : Nat}

/-! ### What a read asks for -/

/-- A read asks for what it would ask for without words, if its buffer can be had. -/
theorem Sound.wordFill?_eq (h : s.Sound first) (hbytes : s.makeRoom.bufferBytes ≤ maxBufferBytes)
    (source : Source) : s.wordFill? source = some (s.fill source) := by
  have hroom := h.heldBytes_lt (List.replicate s.makeRoom.request 0) (by simp)
  rw [heldBytes_append, List.length_replicate] at hroom
  have hfits : s.makeRoom.heldBytes + s.makeRoom.request ≤ maxBufferBytes :=
    Nat.le_trans (Nat.le_of_lt hroom) hbytes
  have hword : s.makeRoom.wordRequest = s.makeRoom.request := by
    refine Nat.mod_eq_of_lt ?_
    have hmost : maxBufferBytes < UInt64.size := by decide
    omega
  rw [wordFill?, hword, if_pos hfits, LineReader.fill]

/-- Behind a read that is made the search for a line goes on, unless the read has failed. -/
theorem wordNext?_of_wordFill? {result : Option Text × LineReader} (hasks : r.Asks source)
    (hread : r.wordFill? source = some result) :
    r.wordNext? = match result with
      | (some message, r') => some (.error message, r')
      | (none, r') => r'.wordNext? := by
  obtain ⟨hsource, hend, hopen⟩ := hasks
  rw [wordNext?]
  split
  · simp_all
  next left hleft =>
    cases hsource.symm.trans hleft
    simp only [hend, hopen, Bool.false_eq_true, dite_false]
    rcases result with ⟨_ | message, r'⟩ <;> split <;> simp_all

/-- A call gives what it would give without words, if each of its reads does. -/
theorem wordNext?_eq (h : ∀ {n s source}, Rounds ReadsOn n r s → s.Asks source →
    s.wordFill? source = some (s.fill source)) : r.wordNext? = some r.next := by
  fun_induction LineReader.next r with
  | case1 r hsource | case2 r source hsource e hend | case3 r source hsource hend hover hempty
  | case4 r source hsource hend hover hempty =>
      rw [wordNext?]
      split <;> simp_all
  | case5 r source hsource hend hopen message r' hfill =>
      have hasks : r.Asks source := ⟨hsource, hend, by simpa using hopen⟩
      have hread := h (.none r) hasks
      rw [hfill] at hread
      exact wordNext?_of_wordFill? hasks hread
  | case6 r source hsource hend hopen r' hfill hless ih =>
      have hasks : r.Asks source := ⟨hsource, hend, by simpa using hopen⟩
      have hread := h (.none r) hasks
      rw [hfill] at hread
      rw [wordNext?_of_wordFill? hasks hread]
      exact ih fun hrounds hlater =>
        h (.more ⟨source, hsource, hend, hasks.isOpen, hfill⟩ hrounds) hlater

/-- The reads of a reader that is seeded before its first read are those that it would make
without words, and so are its calls, unless a line has 2^60 units. -/
structure ReadsInWords (start : LineReader) (source : Source) : Prop where
  read : ∀ {front answers r n s left}, SeededFirst start front answers r →
    longestLine start.encoding (front ++ source.content) < 2 ^ 60 →
      Rounds ReadsOn n r s → s.Asks left → s.wordFill? left = some (s.fill left)
  call : ∀ {front answers r}, SeededFirst start front answers r →
    longestLine start.encoding (front ++ source.content) < 2 ^ 60 → r.wordNext? = some r.next

/-- A reader that is seeded before its first read is used. -/
theorem SeededFirst.uses {front : Bytes} {answers : List (Except Text Bytes)}
    (h : SeededFirst start front answers r) : Relation.ReflTransGen Uses start r := by
  induction h with
  | start => exact .refl
  | seed _ bytes ih => exact ih.tail (.seed _ bytes)
  | call _ ih => exact ih.tail (.call _)
  | reset _ ih => exact ih.tail (.reset _)

/-- **Words make no difference to a reader whose first buffer can be had.** -/
theorem readsInWords_of_unread (hsound : start.Sound start.capacity)
    (hunread : start.Unread source []) (hfits : start.bufferBytes ≤ maxBufferBytes) :
    start.ReadsInWords source := by
  have hread : ∀ {front answers r n s left}, SeededFirst start front answers r →
      longestLine start.encoding (front ++ source.content) < 2 ^ 60 →
        Rounds ReadsOn n r s → s.Asks left → s.wordFill? left = some (s.fill left) := by
    intro front answers r n s left hseeded hline hrounds hasks
    have hpasses : Passes start s := ⟨r, n, hseeded.uses, hrounds⟩
    refine (hpasses.sound hsound).wordFill?_eq ?_ left
    have hbound := hunread.fits_of_rounds hseeded hrounds
    have hunits := hbound.makeRoom hasks
    have hsize : start.encoding.unitSize ≤ 2 := by cases start.encoding <;> decide
    -- the bound on the capacity is the first buffer, or far below what can be had
    show s.makeRoom.capacity.units * s.encoding.unitSize ≤ maxBufferBytes
    rw [hbound.encoding_eq]
    rcases Nat.le_total start.capacity.units
        (2 * longestLine start.encoding (front ++ source.content) + 6) with hle | hle
    · rw [Nat.max_eq_right hle] at hunits
      calc s.makeRoom.capacity.units * start.encoding.unitSize
          ≤ (2 * 2 ^ 60 + 6) * 2 := Nat.mul_le_mul (by omega) hsize
        _ ≤ maxBufferBytes := by decide
    · rw [Nat.max_eq_left hle] at hunits
      exact Nat.le_trans (Nat.mul_le_mul_right _ hunits) hfits
  exact ⟨hread, fun hseeded hline => wordNext?_eq (hread hseeded hline)⟩

/-- Every call of a reader gives in words what it gives without them. -/
def CallsInWords (r : LineReader) : Prop :=
  ∀ k, (r.calls k).wordNext? = some (r.calls k).next

/-- A reader that is seeded and then called is seeded before its first read. -/
theorem seededFirst_calls (start : LineReader) (front : Bytes) (k : Nat) :
    ∃ answers, SeededFirst start front answers ((start.append front).calls k) := by
  induction k with
  | zero => exact ⟨[], .seed .start front⟩
  | succ k ih =>
      obtain ⟨answers, hseeded⟩ := ih
      exact ⟨_, hseeded.call⟩

/-- The calls of a reader over the bytes `front` and those that its source delivers are made in
words, if its first buffer can be had and no line has 2^60 units. -/
theorem callsInWords_append {bytes : Bytes} (h : source.Delivers bytes) (front : Bytes)
    (encoding : FileEncoding) (page : CodePage) {capacity : Capacity}
    (hfits : capacity.units * encoding.unitSize ≤ maxBufferBytes)
    (hline : longestLine encoding (front ++ bytes) < 2 ^ 60) :
    ((ofSource source encoding page capacity).append front).CallsInWords := by
  intro k
  obtain ⟨answers, hseeded⟩ :=
    seededFirst_calls (ofSource source encoding page capacity) front k
  rw [← h.content_eq] at hline
  exact (readsInWords_of_unread (sound_ofSource source encoding page capacity)
    (unread_ofSource source encoding page capacity) hfits).call hseeded hline

end LineReader

namespace SizedReader

/-! ### Many calls -/

/-- The reader behind a number of calls. -/
def calls (s : SizedReader) : Nat → SizedReader
  | 0 => s
  | k + 1 => (s.calls k).next.2

/-- A reader whose buffer fits makes the calls of its reader. -/
theorem calls_of_fits (r : LineReader) (k : Nat) :
    calls ⟨r, .fits⟩ k = ⟨r.calls k, .fits⟩ := by
  induction k with
  | zero => rfl
  | succ k ih => rw [calls, ih]; rfl

/-- What calls of a reader on a machine give: they are those of its reader, and these give
lines, one by one, and then nothing. -/
structure SplitsInto (s : SizedReader) (bytes : Bytes) (lines : List Text) : Prop where
  calls : ∀ k, s.calls k = ⟨s.reader.calls k, .fits⟩
  next : ∀ k, (s.calls k).next.1 = .ok lines[k]?
  reader : s.reader.SplitsInto bytes lines

/-- A reader whose buffer fits is alike to the reader that takes numbers as they are. -/
theorem alike_fits : LineSupply.Alike fun (r : LineReader) (s : SizedReader) => s = ⟨r, .fits⟩ where
  lineNumber := by
    rintro r _ rfl
    rfl
  next := by
    rintro r _ rfl
    exact ⟨_, rfl, rfl⟩
  close := by
    rintro r _ rfl
    rfl

end SizedReader

/-! ### Readers whose first buffer can be had -/

/-- **A line reader on a machine equals the plain split** of the bytes that it was given before
its first read and of those that its source delivers, if its first buffer can be had.  All its
calls are made in words, unless a line has 2^60 units. -/
theorem sized_splitsInto {source : Source} {bytes : Bytes} (h : source.Delivers bytes)
    (seeds : List Bytes) (encoding : FileEncoding) (page : CodePage) {size : BufferSize}
    (hfits : size.units * encoding.unitSize ≤ maxBufferBytes) :
    ((LineReader.ofSource source encoding page size.toCapacity).seeded seeds).sized.SplitsInto
        bytes (plainLines encoding page (seeds.flatten ++ bytes)) ∧
      (longestLine encoding (seeds.flatten ++ bytes) < 2 ^ 60 →
        ((LineReader.ofSource source encoding page size.toCapacity).seeded seeds).CallsInWords) := by
  have hsplits := splitsInto_plainLines h seeds encoding page size.toCapacity
  rw [LineReader.seeded_ofSource] at hsplits ⊢
  have hsized : ((LineReader.ofSource source encoding page size.toCapacity).append
      seeds.flatten).sized =
        ⟨(LineReader.ofSource source encoding page size.toCapacity).append seeds.flatten, .fits⟩ :=
    congrArg (SizedReader.mk _) (if_pos hfits)
  rw [hsized]
  refine ⟨⟨SizedReader.calls_of_fits _, fun k => ?_, hsplits⟩,
    LineReader.callsInWords_append h seeds.flatten encoding page hfits⟩
  rw [SizedReader.calls_of_fits]
  exact hsplits.next k

/-- A source that cuts units and an end of a line in two, is interrupted between its pieces and
would fail if it were read again behind its end. -/
def cuttingSource : Source where
  segments := [.data [0x41, 0x00, 0x0D], .interruption, .data [0x00, 0x0A],
    .data [0x00, 0x43, 0x00], .interruption, .data [0x44], .data [],
    .failure "read behind the end".toList]
  chunk := some 2

/-- The units of `A`, a line end and `C`, and half a unit. -/
def cuttingBytes : Bytes :=
  [0x41, 0x00, 0x0D, 0x00, 0x0A, 0x00, 0x43, 0x00, 0x44]

/-- The lines of units that are cut in two, behind a unit that is given in two pieces, read with
the largest buffer. -/
theorem sized_splitsInto_cut : cuttingSource.Delivers cuttingBytes ∧
    plainLines .wide .utf8 ([[0x42], [0x00]].flatten ++ cuttingBytes) =
      ["BA".toList, "C".toList] ∧
    (BufferSize.ofWord 0x3FFFFFFFFFFFFFFF).units * FileEncoding.wide.unitSize ≤ maxBufferBytes ∧
    ((LineReader.ofSource cuttingSource .wide .utf8
      (BufferSize.ofWord 0x3FFFFFFFFFFFFFFF).toCapacity).seeded [[0x42], [0x00]]).sized.SplitsInto
        cuttingBytes ["BA".toList, "C".toList] ∧
    ((LineReader.ofSource cuttingSource .wide .utf8
      (BufferSize.ofWord 0x3FFFFFFFFFFFFFFF).toCapacity).seeded
        [[0x42], [0x00]]).CallsInWords := by
  have hdelivers : cuttingSource.Delivers cuttingBytes :=
    ⟨.data (by decide) (.interruption (.data (by decide) (.data (by decide) (.interruption
      (.data (by decide) (.emptyRead _)))))), by decide⟩
  have hlines : plainLines .wide .utf8 ([[0x42], [0x00]].flatten ++ cuttingBytes) =
      ["BA".toList, "C".toList] := by decide
  have hfits : (BufferSize.ofWord 0x3FFFFFFFFFFFFFFF).units * FileEncoding.wide.unitSize ≤
      maxBufferBytes := by decide +kernel
  obtain ⟨hsplits, hwords⟩ := sized_splitsInto hdelivers [[0x42], [0x00]] .wide .utf8 hfits
  rw [hlines] at hsplits
  exact ⟨hdelivers, hlines, hfits, hsplits, hwords (by decide +kernel)⟩

/-- **The buffer of a line reader on a machine grows safely**, if its first buffer can be had. -/
theorem sized_growsSafely (source : Source) (encoding : FileEncoding) (page : CodePage)
    {size : BufferSize} (hfits : size.units * encoding.unitSize ≤ maxBufferBytes) :
    (LineReader.ofSource source encoding page size.toCapacity).sizing = .fits ∧
      (LineReader.ofSource source encoding page size.toCapacity).GrowsSafely source ∧
      (LineReader.ofSource source encoding page size.toCapacity).ReadsInWords source :=
  ⟨if_pos hfits, LineReader.growsSafely_ofSource source encoding page size.toCapacity,
    LineReader.readsInWords_of_unread
      (LineReader.sound_ofSource source encoding page size.toCapacity)
      (LineReader.unread_ofSource source encoding page size.toCapacity) hfits⟩

/-- A wide input that delivers two bytes, read with the largest buffer: a request of all but one
of its units. -/
theorem sized_growsSafely_largest :
    (BufferSize.ofWord 0x3FFFFFFFFFFFFFFF).units * FileEncoding.wide.unitSize ≤ maxBufferBytes ∧
      (LineReader.ofSource (.ofBytes [0x41, 0x00]) .wide .utf8
        (BufferSize.ofWord 0x3FFFFFFFFFFFFFFF).toCapacity).GrowsSafely (.ofBytes [0x41, 0x00]) ∧
      (LineReader.ofSource (.ofBytes [0x41, 0x00]) .wide .utf8
        (BufferSize.ofWord 0x3FFFFFFFFFFFFFFF).toCapacity).makeRoom.wordRequest =
          0x7FFFFFFFFFFFFFFC := by
  have hfits : (BufferSize.ofWord 0x3FFFFFFFFFFFFFFF).units * FileEncoding.wide.unitSize ≤
      maxBufferBytes := by decide +kernel
  exact ⟨hfits, (sized_growsSafely (.ofBytes [0x41, 0x00]) .wide .utf8 hfits).2.1,
    by decide +kernel⟩

/-! ### Readers whose first buffer cannot be had -/

/-- A size whose bytes of wide text wrap to two. -/
def wrappingSize : BufferSize :=
  .ofWord 0x8000000000000001

/-- The smallest size whose bytes of wide text no buffer can have. -/
def hugeSize : BufferSize :=
  .ofWord 0x4000000000000000

/-- With a size that wraps the one line of an input is not given, and with one that no buffer can
have there is no reader. -/
theorem not_sized_splitsInto :
    Source.Delivers (.ofBytes [0x41, 0x00]) [0x41, 0x00] ∧
      plainLines .wide .utf8 [0x41, 0x00] = ["A".toList] ∧
      (LineReader.ofSource (.ofBytes [0x41, 0x00]) .wide .utf8
        wrappingSize.toCapacity).sized.next.2.reader.isClosed = true ∧
      (LineReader.ofSource (.ofBytes [0x41, 0x00]) .wide .utf8
        wrappingSize.toCapacity).sized.next.2.reader.lineNumber = 0 ∧
      (LineReader.ofSource (.ofBytes [0x41, 0x00]) .wide .utf8
        hugeSize.toCapacity).sized.sizing = .panics :=
  ⟨Source.delivers_ofBytes _, by decide, by decide +kernel, by decide +kernel, by decide +kernel⟩

/-- With a size that wraps the first request is empty, and its answer is taken for the end of
the input. -/
theorem not_sized_growsSafely :
    (LineReader.ofSource (.ofBytes [0x41, 0x00]) .wide .utf8
        wrappingSize.toCapacity).sizing = .wraps ∧
      (LineReader.ofSource (.ofBytes [0x41, 0x00]) .wide .utf8
        wrappingSize.toCapacity).makeRoom.wordRequest = 0 ∧
      (((LineReader.ofSource (.ofBytes [0x41, 0x00]) .wide .utf8
        wrappingSize.toCapacity).wordFill? (.ofBytes [0x41, 0x00])).map
          fun result => (result.1, result.2.atEnd)) = some (none, true) ∧
      (LineReader.ofSource (.ofBytes [0x41, 0x00]) .wide .utf8
        hugeSize.toCapacity).sizing = .panics := by
  decide +kernel

end RegistryText
