import RegistryText.Lines.Supply

/-!
# Line readers in machine words

The first capacity of a line buffer is a machine word, and so is every number
that is computed from it.  Words wrap; a buffer of more than `maxBufferBytes`
bytes cannot be had, and asking for one ends the program.

**The first buffer decides.**  If a machine can have it the reader is as it was
described: the buffer is doubled only when what it holds leaves no three units
of it free, so there is no memory in which a number could wrap later.  If it
cannot, the number of its bytes may still wrap to one that it can have.  Then
the reader goes on, and what its reads ask for wraps as well; an empty request
is taken for the end of the input.
-/

namespace RegistryText

namespace LineReader

/-- The number of bytes of the buffer. -/
def bufferBytes (r : LineReader) : Nat :=
  r.capacity.units * r.encoding.unitSize

/-- The number of bytes held. -/
def heldBytes (r : LineReader) : Nat :=
  r.pending.length * r.encoding.unitSize + r.half.toList.length

/-- The number of bytes that a read asks for, as a machine word. -/
def wordRequest (r : LineReader) : Nat :=
  r.request % UInt64.size

/-- Read once more, computing in words; nothing if the buffer for what is held and what is asked
for cannot be had. -/
def wordFill? (r : LineReader) (source : Source) : Option (Option Text × LineReader) :=
  if r.makeRoom.heldBytes + r.makeRoom.wordRequest ≤ maxBufferBytes then
    some (r.makeRoom.receive (source.read r.makeRoom.wordRequest))
  else none

/-- A read that is made is one of some number of bytes. -/
theorem exists_of_wordFill? {r : LineReader} {source : Source} {result : Option Text × LineReader}
    (h : r.wordFill? source = some result) :
    ∃ count, r.makeRoom.receive (source.read count) = result := by
  unfold wordFill? at h
  split at h
  · exact ⟨_, Option.some.inj h⟩
  · cases h

/-- The next line, computing in words; nothing if a buffer cannot be had on the way. -/
def wordNext? (r : LineReader) : Option (Except Text (Option Text) × LineReader) :=
  match hsource : r.source with
  | none => some (.ok none, r)
  | some source =>
      match r.lineEnd? with
      | some e => some (.ok (some (r.textOf e.stop)), r.advance e.next)
      | none =>
          if hend : r.atEnd then
            if r.pending.isEmpty then some (.ok none, r.close)
            else some (.ok (some (r.textOf r.pending.length)), r.advanceAll)
          else
            match hfill : r.wordFill? source with
            | none => none
            | some (some message, r') => some (.error message, r')
            | some (none, r') =>
                have : r'.unread < r.unread := by
                  obtain ⟨count, hread⟩ := exists_of_wordFill? hfill
                  exact unread_receive hsource (Bool.not_eq_true _ ▸ hend) hread
                wordNext? r'
termination_by r.unread

/-- A line takes at least one unit away. -/
theorem size_wordNext? {r r' : LineReader} {line : Text}
    (h : r.wordNext? = some (.ok (some line), r')) : r'.size < r.size := by
  fun_induction wordNext? r with
  | case1 r hsource => cases h
  | case2 r source hsource e hend =>
      cases h
      exact size_advance_lt hend
  | case3 r source hsource hend hover hempty => cases h
  | case4 r source hsource hend hover hempty =>
      cases h
      exact size_advanceAll_lt hempty
  | case5 r source hsource hend hopen hfill => cases h
  | case6 r source hsource hend hopen message r'' hfill => cases h
  | case7 r source hsource hend hopen r'' hfill hless ih =>
      obtain ⟨count, hread⟩ := exists_of_wordFill? hfill
      exact Nat.lt_of_lt_of_le (ih h) (size_receive_le hsource hread)

end LineReader

/-- What becomes of the number of bytes of the first buffer. -/
inductive Sizing where
  /-- It is one that a buffer can have. -/
  | fits
  /-- It wraps to one. -/
  | wraps
  /-- No such buffer can be had, and the program has ended. -/
  | panics
  deriving DecidableEq, Repr

/-- A line reader on a machine. -/
structure SizedReader where
  /-- The reader. -/
  reader : LineReader
  /-- What has become of its first buffer. -/
  sizing : Sizing

/-- What becomes of the buffer of a reader that has not read. -/
def LineReader.sizing (r : LineReader) : Sizing :=
  if r.bufferBytes ≤ maxBufferBytes then .fits
  else if r.bufferBytes % UInt64.size ≤ maxBufferBytes then .wraps
  else .panics

/-- A reader that has not read, on a machine. -/
def LineReader.sized (r : LineReader) : SizedReader :=
  ⟨r, r.sizing⟩

namespace SizedReader

/-- The next line, nothing if there is none or if the program has ended, or the message of a
failing read. -/
def next (s : SizedReader) : Except Text (Option Text) × SizedReader :=
  match s.sizing with
  | .fits => (s.reader.next.1, { s with reader := s.reader.next.2 })
  | .wraps =>
      match s.reader.wordNext? with
      | some (answer, reader) => (answer, { s with reader := reader })
      | none => (.ok none, { s with sizing := .panics })
  | .panics => (.ok none, s)

/-- A line takes at least one unit away. -/
theorem size_next {s s' : SizedReader} {line : Text} (h : s.next = (.ok (some line), s')) :
    s'.reader.size < s.reader.size := by
  unfold next at h
  split at h
  · cases hnext : s.reader.next with
    | mk answer reader =>
        rw [hnext] at h
        cases h
        exact LineReader.size_next hnext
  · split at h
    · next answer reader hnext =>
        cases h
        exact LineReader.size_wordNext? hnext
    · cases h
  · cases h

end SizedReader

instance : LineSupply SizedReader where
  next := SizedReader.next
  lineNumber s := s.reader.lineNumber
  close s := { s with reader := s.reader.close }
  size s := s.reader.size
  size_next := SizedReader.size_next

end RegistryText
