import RegistryText.Encoding.FileEncoding
import RegistryText.Lines.Capacity
import RegistryText.Source

/-!
# The line reader

A line reader takes bytes from a source and gives decoded lines.  A line ends
at a carriage return, at a line feed, or at the two in this order, which count
as one end.  What is left without an end when the input is over is a line as
well, unless it is empty.

**A carriage return in the last unit read so far ends no line yet**, since its
line feed may still come; only at the end of the input it does.  For the same
reason a search that found no end is taken up again one unit before the end of
what it saw.

The reader closes itself when the input is over, and gives no line from then
on.  A failing read is reported and changes nothing but the source and the
capacity, so the next call goes on where this one stopped.
-/

namespace RegistryText

/-- The code unit of a carriage return. -/
def carriageReturn : UInt16 := 0x0D

/-- The code unit of a line feed. -/
def lineFeed : UInt16 := 0x0A

/-- Where a line ends and where the next one begins, in code units. -/
structure LineEnd where
  /-- The number of units of the line. -/
  stop : Nat
  /-- The number of units of the line and its end. -/
  next : Nat
  deriving DecidableEq, Repr

/-- The first end of a line in units of which the first has the index `i`.
`atEnd` says whether no unit can follow the last. -/
def LineEnd.find? (atEnd : Bool) (i : Nat) : List UInt16 → Option LineEnd
  | [] => none
  | u :: rest =>
      if u = lineFeed then some ⟨i, i + 1⟩
      else if u = carriageReturn then
        match rest with
        | [] => if atEnd then some ⟨i, i + 1⟩ else none
        | v :: _ => some ⟨i, if v = lineFeed then i + 2 else i + 1⟩
      else find? atEnd (i + 1) rest

theorem LineEnd.lt_next_of_find? {atEnd : Bool} {i : Nat} {units : List UInt16} {e : LineEnd}
    (h : LineEnd.find? atEnd i units = some e) : i < e.next ∧ i < i + units.length := by
  induction units generalizing i with
  | nil => cases h
  | cons u rest ih =>
      unfold LineEnd.find? at h
      split at h
      · cases h; simp
      split at h
      · split at h
        · split at h <;> cases h; simp
        · cases h
          simp only [List.length_cons]
          split <;> omega
      · have := ih h
        simp only [List.length_cons]
        omega

/-- A reader of lines. -/
structure LineReader where
  /-- Where bytes come from, until the reader is closed. -/
  source : Option Source
  /-- The encoding of the input. -/
  encoding : FileEncoding
  /-- The code page of narrow text. -/
  page : CodePage
  /-- The code units that have been read and belong to no line yet. -/
  pending : List UInt16
  /-- The first byte of a unit that a read cut in two. -/
  half : Option UInt8
  /-- The number of pending units that are known to hold no end of a line. -/
  scanned : Nat
  /-- The capacity of the buffer. -/
  capacity : Capacity
  /-- The capacity that the reader began with. -/
  firstCapacity : Capacity
  /-- Whether the input is over. -/
  atEnd : Bool
  /-- The number of lines given. -/
  lineNumber : Nat

namespace LineReader

/-- A reader that has read nothing. -/
def ofSource (source : Source) (encoding : FileEncoding) (page : CodePage)
    (capacity : Capacity) : LineReader where
  source := some source
  encoding := encoding
  page := page
  pending := []
  half := none
  scanned := 0
  capacity := capacity
  firstCapacity := capacity
  atEnd := false
  lineNumber := 0

/-- Whether the reader has let go of its source. -/
def isClosed (r : LineReader) : Bool :=
  r.source.isNone

/-- Put bytes behind those that have been read. -/
def append (r : LineReader) (bytes : Bytes) : LineReader :=
  let units := r.encoding.wholeUnits (r.half.toList ++ bytes)
  { r with pending := r.pending ++ units.1, half := units.2 }

/-- Let go of the source and of everything that has been read. -/
def close (r : LineReader) : LineReader :=
  { r with
    source := none
    pending := []
    half := none
    scanned := 0
    capacity := r.firstCapacity
    atEnd := true }

/-- The end of the first pending line. -/
def lineEnd? (r : LineReader) : Option LineEnd :=
  LineEnd.find? r.atEnd r.scanned (r.pending.drop r.scanned)

/-- The text of the first `count` pending units. -/
def textOf (r : LineReader) (count : Nat) : Text :=
  r.encoding.decodeUnits r.page (r.pending.take count)

/-- Count a line and drop its units. -/
def advance (r : LineReader) (count : Nat) : LineReader :=
  { r with
    pending := r.pending.drop count
    scanned := 0
    lineNumber := r.lineNumber + 1 }

/-- Count a line that takes everything that has been read. -/
def advanceAll (r : LineReader) : LineReader :=
  { r.advance r.pending.length with half := none }

/-- Note that the pending units hold no end of a line, a carriage return at
their end excepted, and make room for a read. -/
def makeRoom (r : LineReader) : LineReader :=
  { r with
    capacity := r.capacity.grow r.pending.length
    scanned := r.pending.length - 1 }

/-- The number of bytes that a read asks for. -/
def request (r : LineReader) : Nat :=
  (r.capacity.units - r.pending.length - 1) * r.encoding.unitSize

/-- Take in what a read gave: the message of a failure, or bytes. -/
def receive (r : LineReader) : Except Text Bytes × Source → Option Text × LineReader
  | (.error message, rest) => (some message, { r with source := some rest })
  | (.ok bytes, rest) =>
      (none, { r.append bytes with
               source := some rest
               atEnd := r.atEnd || bytes.isEmpty })

/-- Read once more; the result is the message of a failing read, if it
failed. -/
def fill (r : LineReader) (source : Source) : Option Text × LineReader :=
  r.makeRoom.receive (source.read r.makeRoom.request)

/-- What bounds the number of reads until a line is found. -/
def unread (r : LineReader) : Nat :=
  (match r.source with
    | none => 0
    | some source => source.size) + (if r.atEnd then 0 else 1)

/-- A read that does not fail leaves less to be read, whatever it asked for. -/
theorem unread_receive {r r' : LineReader} {source : Source} {count : Nat}
    (hsource : r.source = some source) (hopen : r.atEnd = false)
    (h : r.makeRoom.receive (source.read count) = (none, r')) : r'.unread < r.unread := by
  rcases hread : source.read count with ⟨result, rest⟩
  rw [hread] at h
  cases result with
  | error message => cases h
  | ok bytes =>
      cases h
      have hsize := Source.size_read hread
      have hmade : r.makeRoom.atEnd = false := hopen
      cases bytes with
      | nil =>
          simp only [List.length_nil] at hsize
          simp [unread, hsource, hopen]
          omega
      | cons b bytes =>
          simp only [List.length_cons] at hsize
          simp [unread, hsource, hopen, hmade]
          omega

theorem unread_fill {r r' : LineReader} {source : Source} (hsource : r.source = some source)
    (hopen : r.atEnd = false) (h : r.fill source = (none, r')) : r'.unread < r.unread :=
  unread_receive hsource hopen h

/-- The next line, nothing if there is none, or the message of a failing
read. -/
def next (r : LineReader) : Except Text (Option Text) × LineReader :=
  match hsource : r.source with
  | none => (.ok none, r)
  | some source =>
      match r.lineEnd? with
      | some e => (.ok (some (r.textOf e.stop)), r.advance e.next)
      | none =>
          if hend : r.atEnd then
            if r.pending.isEmpty then (.ok none, r.close)
            else (.ok (some (r.textOf r.pending.length)), r.advanceAll)
          else
            match hfill : r.fill source with
            | (some message, r') => (.error message, r')
            | (none, r') =>
                have : r'.unread < r.unread :=
                  unread_fill hsource (Bool.not_eq_true _ ▸ hend) hfill
                next r'
termination_by r.unread

/-! ### What the next line is -/

/-- A closed reader stays as it is. -/
theorem next_of_closed {r : LineReader} (h : r.source = none) : r.next = (.ok none, r) := by
  rw [next]
  split <;> simp_all

/-- A line whose end has been read is given. -/
theorem next_of_lineEnd {r : LineReader} {source : Source} {e : LineEnd}
    (hsource : r.source = some source) (hend : r.lineEnd? = some e) :
    r.next = (.ok (some (r.textOf e.stop)), r.advance e.next) := by
  rw [next]
  split <;> simp_all

/-- At the end of the input, what is left is a line unless it is empty. -/
theorem next_of_atEnd {r : LineReader} {source : Source} (hsource : r.source = some source)
    (hend : r.lineEnd? = none) (hover : r.atEnd = true) :
    r.next = if r.pending.isEmpty then (.ok none, r.close)
      else (.ok (some (r.textOf r.pending.length)), r.advanceAll) := by
  rw [next]
  split <;> simp_all

/-- A failing read is reported. -/
theorem next_of_failed_fill {r r' : LineReader} {source : Source} {message : Text}
    (hsource : r.source = some source) (hend : r.lineEnd? = none) (hopen : r.atEnd = false)
    (hfill : r.fill source = (some message, r')) : r.next = (.error message, r') := by
  rw [next]
  split
  · simp_all
  next left hleft =>
    cases hsource.symm.trans hleft
    simp only [hend, hopen, Bool.false_eq_true, dite_false]
    split <;> simp_all

/-- Behind a read the search for a line goes on. -/
theorem next_of_fill {r r' : LineReader} {source : Source} (hsource : r.source = some source)
    (hend : r.lineEnd? = none) (hopen : r.atEnd = false)
    (hfill : r.fill source = (none, r')) : r.next = r'.next := by
  rw [next]
  split
  · simp_all
  next left hleft =>
    cases hsource.symm.trans hleft
    simp only [hend, hopen, Bool.false_eq_true, dite_false]
    split <;> simp_all

end LineReader

end RegistryText
