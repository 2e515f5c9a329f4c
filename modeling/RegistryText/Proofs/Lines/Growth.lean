import Mathlib.Algebra.Group.Nat.Defs
import Mathlib.Logic.Relation
import RegistryText.Lines.Sized
import RegistryText.Proofs.Lines.Progress
import RegistryText.Proofs.Lines.Rounds

/-!
# How the buffer of a line reader grows

An empty request would be taken for the end of the input, so a reader must never make one.
It does not, however it is used (`growsSafely_ofSource`): **at every read the buffer has three
units to spare**, so two of them at least are asked for, and what is held behind the read fits
into the buffer with room to spare (`SafeRead`).

The capacity is doubled only when a line needs it.  What a reader holds when it reads is one
line without an end, and at most a carriage return behind it (`HasSplit.length_pending_le`).
So if nothing is put in front of the source once reading has begun, **the longest line bounds
the capacity** (`Fits`), however many lines there are.

A call is made of few kinds of steps (`Step`).  What all of them keep holds behind every call
and in front of every read of a call (`Passes.keeps`).
-/

namespace RegistryText

namespace Capacity

variable (c : Capacity) (pending : Nat)

/-- A capacity grows by doubling. -/
theorem exists_units_grow : ∃ k, (c.grow pending).units = c.units * 2 ^ k := by
  fun_induction grow c pending with
  | case1 c hsmall ih =>
      obtain ⟨k, hk⟩ := ih
      refine ⟨k + 1, ?_⟩
      rw [hk, double, Nat.pow_succ, Nat.mul_assoc, Nat.mul_left_comm, Nat.mul_comm 2]
  | case2 c hlarge => exact ⟨0, (Nat.mul_one _).symm⟩

/-- So it never gets smaller. -/
theorem le_units_grow : c.units ≤ (c.grow pending).units := by
  fun_induction grow c pending with
  | case1 c hsmall ih =>
      have hdouble : c.double.units = 2 * c.units := rfl
      omega
  | case2 c hlarge => exact Nat.le_refl _

/-- A capacity that is doubled had at most two units to spare. -/
theorem units_grow_le {most : Nat} (hunits : c.units ≤ most) (hpending : 2 * pending + 4 ≤ most) :
    (c.grow pending).units ≤ most := by
  fun_induction grow c pending with
  | case1 c hsmall ih =>
      apply ih
      simp only [double]
      omega
  | case2 c hlarge => exact hunits

end Capacity

namespace Source

variable {source rest : Source} {count : Nat}

/-- A source that gives what it has in chunks is never asked for more than the request. -/
theorem asked_le (source : Source) (count : Nat) : source.asked count ≤ count := by
  unfold asked
  split
  · exact Nat.le_refl _
  · split <;> omega

/-- What a read gives fits in the request. -/
theorem length_readSegments_le {segments left : List Segment} {given : Bytes}
    (h : readSegments count segments = (.ok given, left)) : given.length ≤ count := by
  induction segments with
  | nil =>
      cases h
      exact Nat.zero_le _
  | cons segment segments ih =>
      cases segment with
      | interruption => exact ih h
      | failure message => cases h
      | data bytes =>
          cases h
          exact List.length_take_le _ _

/-- A read gives no more than it is asked for. -/
theorem length_read_le {given : Bytes} (h : source.read count = (.ok given, rest)) :
    given.length ≤ count := by
  rw [read_eq] at h
  have hread : readSegments (source.asked count) source.segments = (.ok given, _) :=
    Prod.ext (Prod.mk.inj h).1 rfl
  exact Nat.le_trans (length_readSegments_le hread) (source.asked_le count)

/-- If a request that is not empty finds the segments over, so does every other one. -/
theorem readSegments_of_empty_read {segments : List Segment} (hcount : count ≠ 0)
    (h : (readSegments count segments).1 = .ok []) (other : Nat) :
    (readSegments other segments).1 = .ok [] := by
  induction segments with
  | nil => rfl
  | cons segment segments ih =>
      cases segment with
      | interruption => exact ih h
      | failure message => cases h
      | data bytes =>
          have hnothing : bytes.take count = [] := Except.ok.inj h
          rcases List.take_eq_nil_iff.mp hnothing with hzero | rfl
          · exact absurd hzero hcount
          · exact congrArg Except.ok List.take_nil

/-- **A read that asks for something is empty only if every other read in its place is.** -/
theorem read_of_empty_read (hcount : 0 < count) (h : (source.read count).1 = .ok [])
    (other : Nat) : (source.read other).1 = .ok [] := by
  rw [read_eq] at h ⊢
  by_cases hchunk : source.chunk = some 0
  · have hother : source.asked other = 0 := by
      simp only [asked, hchunk]
      split <;> omega
    rw [(asked_eq_zero_iff hcount).mpr hchunk] at h
    rwa [hother]
  · exact readSegments_of_empty_read (mt (asked_eq_zero_iff hcount).mp hchunk) h _

end Source

namespace FileEncoding

/-- Whole units and the lone byte take what the bytes take. -/
theorem length_wholeUnits (encoding : FileEncoding) (bytes : Bytes) :
    (encoding.wholeUnits bytes).1.length * encoding.unitSize +
      (encoding.wholeUnits bytes).2.toList.length = bytes.length := by
  cases encoding with
  | narrow => simp [wholeUnits, unitSize]
  | wide =>
      simp only [wholeUnits, unitSize]
      fun_induction Utf16.wholeUnits bytes with
      | case1 => rfl
      | case2 a => rfl
      | case3 a b rest r ih =>
          simp only [List.length_cons, r]
          omega

/-- A lone byte is less than a unit. -/
theorem length_half_lt (encoding : FileEncoding) (bytes : Bytes) :
    (encoding.wholeUnits bytes).2.toList.length < encoding.unitSize := by
  cases encoding with
  | narrow => exact Nat.one_pos
  | wide =>
      show (Utf16.wholeUnits bytes).2.toList.length < 2
      cases (Utf16.wholeUnits bytes).2 with
      | none => exact Nat.two_pos
      | some byte => exact Nat.one_lt_two

end FileEncoding

/-- The length of the longest line of bytes, in code units. -/
def longestLine (encoding : FileEncoding) (bytes : Bytes) : Nat :=
  ((linesOf carriageReturn lineFeed (encoding.wholeUnits bytes).1).map List.length).foldr max 0

/-- No line of an input is longer than the longest. -/
theorem length_le_longestLine {encoding : FileEncoding} {bytes : Bytes} {line : List UInt16}
    (h : line ∈ linesOf carriageReturn lineFeed (encoding.wholeUnits bytes).1) :
    line.length ≤ longestLine encoding bytes := by
  unfold longestLine
  generalize linesOf carriageReturn lineFeed (encoding.wholeUnits bytes).1 = lines at h
  induction h with
  | head => exact Nat.le_max_left _ _
  | tail _ _ ih => exact Nat.le_trans ih (Nat.le_max_right _ _)

/-- The longest line has no more units than there are bytes. -/
theorem longestLine_le_length (encoding : FileEncoding) (bytes : Bytes) :
    longestLine encoding bytes ≤ bytes.length := by
  have hunits : (encoding.wholeUnits bytes).1.length ≤ bytes.length := by
    have hbytes := encoding.length_wholeUnits_le bytes
    omega
  have hlines : ∀ line ∈ linesOf carriageReturn lineFeed (encoding.wholeUnits bytes).1,
      line.length ≤ bytes.length :=
    fun line hline => Nat.le_trans (length_le_of_mem_linesOf hline) hunits
  unfold longestLine
  generalize linesOf carriageReturn lineFeed (encoding.wholeUnits bytes).1 = lines at hlines ⊢
  induction lines with
  | nil => exact Nat.zero_le _
  | cons line lines ih =>
      obtain ⟨hline, hothers⟩ := List.forall_mem_cons.mp hlines
      exact Nat.max_le.mpr ⟨hline, ih hothers⟩

namespace LineReader

variable {r r' s start : LineReader} {source : Source} {n : Nat}

/-! ### Uses of a reader -/

/-- A reader is about to read: it has found no line, and its input is not over. -/
structure Asks (r : LineReader) (source : Source) : Prop where
  source_eq : r.source = some source
  lineEnd_eq : r.lineEnd? = none
  isOpen : r.atEnd = false

/-- What can be done with a reader. -/
inductive Uses : LineReader → LineReader → Prop
  | call (r : LineReader) : Uses r r.next.2
  | reset (r : LineReader) : Uses r r.close
  | seed (r : LineReader) (bytes : Bytes) : Uses r (r.append bytes)

/-- A reader that is used passes through a state: behind its last use, or behind some of the
reads of the next one. -/
def Passes (start s : LineReader) : Prop :=
  ∃ r n, Relation.ReflTransGen Uses start r ∧ Rounds ReadsOn n r s

/-- A reader has been given the bytes `front` before its first read, and its reads have been
answered with `answers`. -/
inductive SeededFirst (start : LineReader) :
    Bytes → List (Except Text Bytes) → LineReader → Prop
  | start : SeededFirst start [] [] start
  | seed {front : Bytes} {r : LineReader} (h : SeededFirst start front [] r) (bytes : Bytes) :
      SeededFirst start (front ++ bytes) [] (r.append bytes)
  | call {front : Bytes} {answers : List (Except Text Bytes)} {r : LineReader}
      (h : SeededFirst start front answers r) :
      SeededFirst start front (answers ++ r.tracedNext.1) r.next.2
  | reset {front : Bytes} {answers : List (Except Text Bytes)} {r : LineReader}
      (h : SeededFirst start front answers r) : SeededFirst start front answers r.close

/-! ### What a call is made of -/

/-- A step of a call: it reads, or it ends with a line, with the last line or with none.  A
reset is the last of these. -/
inductive Step : LineReader → LineReader → Prop
  | read {r : LineReader} {source : Source} (h : r.Asks source) : Step r (r.fill source).2
  | line {r : LineReader} {source : Source} {e : LineEnd} (hsource : r.source = some source)
      (hend : r.lineEnd? = some e) : Step r (r.advance e.next)
  | last {r : LineReader} {source : Source} (hsource : r.source = some source)
      (hend : r.lineEnd? = none) (hover : r.atEnd = true) (hne : r.pending ≠ []) :
      Step r r.advanceAll
  | stop (r : LineReader) : Step r r.close

/-- A call is made of steps. -/
theorem steps_next (r : LineReader) : Relation.ReflTransGen Step r r.next.2 := by
  fun_induction LineReader.next r with
  | case1 r hsource => exact .refl
  | case2 r source hsource e hend => exact .single (.line hsource hend)
  | case3 r source hsource hend hover hempty => exact .single (.stop r)
  | case4 r source hsource hend hover hempty =>
      exact .single (.last hsource hend hover (by simpa using hempty))
  | case5 r source hsource hend hopen message r' hfill =>
      have hread := Step.read ⟨hsource, hend, by simpa using hopen⟩
      rw [hfill] at hread
      exact .single hread
  | case6 r source hsource hend hopen r' hfill hless ih =>
      have hread := Step.read ⟨hsource, hend, by simpa using hopen⟩
      rw [hfill] at hread
      exact .head hread ih

/-- So are the rounds of a call that read on. -/
theorem steps_of_rounds (h : Rounds ReadsOn n r s) : Relation.ReflTransGen Step r s := by
  induction h with
  | none r => exact .refl
  | more first rest ih =>
      obtain ⟨source, hsource, hend, hopen, hfill⟩ := first
      have hread := Step.read ⟨hsource, hend, hopen⟩
      rw [hfill] at hread
      exact .head hread ih

/-- Every read of a call is made by a reader that has found no line yet. -/
theorem exists_asks_of_mem_tracedNext {answer : Except Text Bytes} (h : answer ∈ r.tracedNext.1) :
    ∃ n s source, Rounds ReadsOn n r s ∧ s.Asks source ∧
      answer = (source.read s.makeRoom.request).1 := by
  fun_induction LineReader.tracedNext r with
  | case1 | case2 | case3 | case4 => cases h
  | case5 r source hsource hend hopen message r' hfill =>
      have hasks : r.Asks source := ⟨hsource, hend, by simpa using hopen⟩
      exact ⟨0, r, source, .none r, hasks, List.mem_singleton.mp h⟩
  | case6 r source hsource hend hopen r' hfill hless ih =>
      have hopen' : r.atEnd = false := by simpa using hopen
      rcases List.mem_cons.mp h with hfirst | hlater
      · exact ⟨0, r, source, .none r, ⟨hsource, hend, hopen'⟩, hfirst⟩
      · obtain ⟨n, s, source', hrounds, hasks, hanswer⟩ := ih hlater
        exact ⟨n + 1, s, source', .more ⟨source, hsource, hend, hopen', hfill⟩ hrounds, hasks,
          hanswer⟩

/-- What every step keeps is kept by any number of them. -/
theorem keeps_of_steps {P : LineReader → Prop} (hstep : ∀ r r', Step r r' → P r → P r')
    (h : Relation.ReflTransGen Step r r') (hr : P r) : P r' := by
  induction h with
  | refl => exact hr
  | tail _ hlast ih => exact hstep _ _ hlast ih

/-- **What every step and every seed keeps holds wherever a reader passes.** -/
theorem Passes.keeps {P : LineReader → Prop} (hstep : ∀ r r', Step r r' → P r → P r')
    (hseed : ∀ r bytes, P r → P (r.append bytes)) (h : Passes start s) (hstart : P start) :
    P s := by
  obtain ⟨r, n, huses, hrounds⟩ := h
  apply keeps_of_steps hstep (steps_of_rounds hrounds)
  clear hrounds
  induction huses with
  | refl => exact hstart
  | tail _ hlast ih =>
      cases hlast with
      | call => exact keeps_of_steps hstep (steps_next _) ih
      | reset => exact hstep _ _ (.stop _) ih
      | seed bytes => exact hseed _ bytes ih

/-- What a read does to the capacity. -/
theorem capacity_fill (r : LineReader) (source : Source) :
    (r.fill source).2.capacity = r.makeRoom.capacity ∧
      (r.fill source).2.firstCapacity = r.firstCapacity := by
  rcases fill_cases r source with ⟨piece, rest, -, hfill⟩ | ⟨message, rest, -, hfill⟩
  all_goals
    rw [hfill]
    exact ⟨rfl, rfl⟩

/-- A reader that still has its source is not closed. -/
theorem isClosed_of_source (h : r.source = some source) : r.isClosed = false := by
  rw [isClosed, h]
  rfl

/-! ### Every read has room -/

/-- What is appended is held to the last byte, the half of a unit included. -/
theorem heldBytes_append (r : LineReader) (bytes : Bytes) :
    (r.append bytes).heldBytes = r.heldBytes + bytes.length := by
  have hunits := r.encoding.length_wholeUnits (r.half.toList ++ bytes)
  rw [List.length_append] at hunits
  simp only [heldBytes, append, List.length_append, Nat.add_mul]
  omega

/-- What holds of the buffer wherever a reader passes. -/
structure Sound (first : Capacity) (r : LineReader) : Prop where
  firstCapacity_eq : r.firstCapacity = first
  capacity_eq : ∃ k, r.capacity.units = first.units * 2 ^ k
  half_lt : r.half.toList.length < r.encoding.unitSize

/-- A read that has room, by a reader that began with the capacity `first`. -/
structure SafeRead (first : Capacity) (s : LineReader) (source : Source) : Prop where
  capacity_eq : ∃ k, s.makeRoom.capacity.units = first.units * 2 ^ k
  capacity_le : s.capacity.units ≤ s.makeRoom.capacity.units
  room : s.makeRoom.pending.length + 3 ≤ s.makeRoom.capacity.units
  request_eq : s.makeRoom.request =
    (s.makeRoom.capacity.units - s.makeRoom.pending.length - 1) * s.encoding.unitSize
  request_ge : 2 * s.encoding.unitSize ≤ s.makeRoom.request
  /-- A read is empty only if the source has come to its end. -/
  empty : (source.read s.makeRoom.request).1 = .ok [] → ∀ count, (source.read count).1 = .ok []
  held : (s.fill source).2.heldBytes < s.makeRoom.capacity.units * s.encoding.unitSize

variable {first : Capacity}

/-- Making room for a read keeps a reader sound. -/
theorem Sound.makeRoom (h : r.Sound first) : r.makeRoom.Sound first where
  firstCapacity_eq := h.firstCapacity_eq
  capacity_eq := by
    obtain ⟨k, hk⟩ := h.capacity_eq
    obtain ⟨j, hj⟩ := r.capacity.exists_units_grow r.pending.length
    refine ⟨k + j, ?_⟩
    rw [LineReader.makeRoom, hj, hk, Nat.pow_add, Nat.mul_assoc]
  half_lt := h.half_lt

/-- Appended bytes leave less than a unit in two halves, and the capacity alone. -/
theorem Sound.append (h : r.Sound first) (bytes : Bytes) : (r.append bytes).Sound first where
  firstCapacity_eq := h.firstCapacity_eq
  capacity_eq := h.capacity_eq
  half_lt := r.encoding.length_half_lt _

/-- **A step keeps a reader sound.** -/
theorem Sound.step (h : r.Sound first) (hstep : Step r r') : r'.Sound first := by
  cases hstep with
  | @read source hasks =>
      have hroom := h.makeRoom
      rcases fill_cases r source with ⟨piece, rest, -, hfill⟩ | ⟨message, rest, -, hfill⟩
      · have hpiece := hroom.append piece
        rw [hfill]
        exact ⟨hpiece.firstCapacity_eq, hpiece.capacity_eq, hpiece.half_lt⟩
      · rw [hfill]
        exact ⟨hroom.firstCapacity_eq, hroom.capacity_eq, hroom.half_lt⟩
  | line hsource hend => exact ⟨h.firstCapacity_eq, h.capacity_eq, h.half_lt⟩
  | last hsource hend hover hne =>
      exact ⟨h.firstCapacity_eq, h.capacity_eq, r.encoding.unitSize_pos⟩
  | stop =>
      refine ⟨h.firstCapacity_eq, ⟨0, ?_⟩, r.encoding.unitSize_pos⟩
      rw [LineReader.close, h.firstCapacity_eq, Nat.pow_zero, Nat.mul_one]

/-- The buffer is sound wherever a reader passes that begins with a sound one. -/
theorem Passes.sound (h : Passes start s) (hstart : start.Sound start.capacity) :
    s.Sound start.capacity :=
  h.keeps (fun _ _ hstep hkept => hkept.step hstep) (fun _ bytes hkept => hkept.append bytes) hstart

/-- What is read into the room that has been made fits. -/
theorem Sound.heldBytes_lt (h : s.Sound first) (piece : Bytes)
    (hpiece : piece.length ≤ s.makeRoom.request) :
    (s.makeRoom.append piece).heldBytes < s.makeRoom.capacity.units * s.encoding.unitSize := by
  have hroom := s.capacity.three_le_grow_sub s.pending.length
  have hhalf := h.half_lt
  have hunits : s.pending.length +
      ((s.capacity.grow s.pending.length).units - s.pending.length - 1) + 1 =
        (s.capacity.grow s.pending.length).units := by
    omega
  have hbytes := congrArg (· * s.encoding.unitSize) hunits
  simp only [Nat.add_mul, Nat.one_mul] at hbytes
  rw [heldBytes_append]
  simp only [heldBytes, LineReader.makeRoom, request] at hpiece ⊢
  omega

/-- **Where a sound reader asks for more it has room for two units and for the end of the text.**
-/
theorem Sound.safeRead (h : s.Sound first) (source : Source) : SafeRead first s source where
  capacity_eq := h.makeRoom.capacity_eq
  capacity_le := s.capacity.le_units_grow _
  room := by
    have hroom := s.capacity.three_le_grow_sub s.pending.length
    show s.pending.length + 3 ≤ (s.capacity.grow s.pending.length).units
    omega
  request_eq := rfl
  request_ge := by
    have hroom := s.capacity.three_le_grow_sub s.pending.length
    refine Nat.mul_le_mul_right _ ?_
    show 2 ≤ (s.capacity.grow s.pending.length).units - s.pending.length - 1
    omega
  empty hempty := Source.read_of_empty_read s.request_makeRoom_pos hempty
  held := by
    rcases fill_cases s source with ⟨piece, rest, hread, hfill⟩ | ⟨message, rest, -, hfill⟩
    · rw [hfill]
      exact h.heldBytes_lt piece (Source.length_read_le hread)
    · have hheld := h.heldBytes_lt [] (Nat.zero_le _)
      rw [heldBytes_append] at hheld
      rw [hfill]
      exact hheld

/-! ### A capacity never shrinks -/

/-- A reader has been closed, or its capacity is as large as it was. -/
def Outgrows (r r' : LineReader) : Prop :=
  r'.isClosed = true ∨ r.isClosed = false ∧ r.capacity.units ≤ r'.capacity.units

/-- A step takes no capacity away, but for the one that closes the reader. -/
theorem Outgrows.step (h : Outgrows start r) (hstep : Step r r') : Outgrows start r' := by
  cases hstep with
  | @read source hasks =>
      have hclosed := isClosed_of_source hasks.source_eq
      rcases h with hclosed' | ⟨hstart, hle⟩
      · rw [hclosed] at hclosed'
        cases hclosed'
      · refine Or.inr ⟨hstart, ?_⟩
        rw [(capacity_fill r source).1]
        exact Nat.le_trans hle (r.capacity.le_units_grow _)
  | line | last => exact h
  | stop => exact Or.inl rfl

/-- **A reader that is not closed has not less room than before.** -/
theorem Passes.capacity_le (h : Passes r s) (hopen : s.isClosed = false) :
    r.capacity.units ≤ s.capacity.units := by
  have hstart : Outgrows r r := by
    cases hclosed : r.isClosed with
    | true => exact Or.inl hclosed
    | false => exact Or.inr ⟨hclosed, Nat.le_refl _⟩
  have houtgrows : Outgrows r s :=
    h.keeps (fun _ _ hstep hkept => hkept.step hstep) (fun _ _ hkept => hkept) hstart
  rcases houtgrows with hclosed | ⟨-, hle⟩
  · rw [hopen] at hclosed
    cases hclosed
  · exact hle

/-! ### The longest line bounds the capacity -/

variable {bytes front input : Bytes} {given : List (List UInt16)}

/-- **What a reader holds when it reads is one line**, and at most a carriage return. -/
theorem HasSplit.length_pending_le (h : r.HasSplit bytes given) (hasks : r.Asks source)
    (more : Bytes) : r.pending.length ≤ longestLine r.encoding (bytes ++ more) + 1 := by
  by_cases hempty : r.pending = []
  · rw [hempty]
    exact Nat.zero_le _
  have hlines := h.lines (r.encoding.wholeUnits (r.half.toList ++ more)).1 (by simp [hasks.isOpen])
  rw [h.half hasks.isOpen, ← r.encoding.wholeUnits_append] at hlines
  generalize (r.encoding.wholeUnits ((r.encoding.wholeUnits bytes).2.toList ++ more)).1 =
    units at hlines
  -- only the last unit that is held can end a line
  have hfree := h.holds.endFree_dropLast hasks.lineEnd_eq
  have hheld := List.dropLast_concat_getLast hempty
  obtain ⟨line, lines, hlast⟩ : ∃ line lines, linesOf carriageReturn lineFeed
      (r.pending.getLast hempty :: units) = line :: lines :=
    List.exists_cons_of_ne_nil (linesOf_ne_nil (List.cons_ne_nil _ _))
  have hfirst := linesOf_append_of_cons hfree hlast
  rw [← List.singleton_append, ← List.append_assoc, hheld] at hfirst
  have hmem : r.pending.dropLast ++ line ∈
      linesOf carriageReturn lineFeed (r.encoding.wholeUnits (bytes ++ more)).1 := by
    rw [hlines, hfirst]
    exact List.mem_append_right _ List.mem_cons_self
  have hlength := length_le_longestLine hmem
  rw [List.length_append, List.length_dropLast] at hlength
  omega

/-- The longest line of the input bounds the capacity, and what has been read and what is
still to be read is the input. -/
structure Fits (first : Capacity) (encoding : FileEncoding) (input : Bytes) (r : LineReader) :
    Prop where
  encoding_eq : r.encoding = encoding
  firstCapacity_eq : r.firstCapacity = first
  capacity_le : r.capacity.units ≤ max first.units (2 * longestLine encoding input + 6)
  split : r.isClosed = false → ∃ read given, r.HasSplit read given ∧ read ++ r.content = input

variable {encoding : FileEncoding}

/-- The room for a read is bounded as well. -/
theorem Fits.makeRoom (h : r.Fits first encoding input) (hasks : r.Asks source) :
    r.makeRoom.capacity.units ≤ max first.units (2 * longestLine encoding input + 6) := by
  obtain ⟨read, given, hsplit, rfl⟩ := h.split (isClosed_of_source hasks.source_eq)
  have hpending := hsplit.length_pending_le hasks r.content
  rw [h.encoding_eq] at hpending
  apply r.capacity.units_grow_le _ h.capacity_le
  omega

/-- A closed reader has its first buffer again. -/
theorem Fits.close (h : r.Fits first encoding input) : r.close.Fits first encoding input where
  encoding_eq := h.encoding_eq
  firstCapacity_eq := h.firstCapacity_eq
  capacity_le := by
    rw [LineReader.close, h.firstCapacity_eq]
    exact Nat.le_max_left _ _
  split hopen := by cases hopen

/-- **A step keeps the buffer within what the longest line needs.** -/
theorem Fits.step (h : r.Fits first encoding input) (hstep : Step r r') :
    r'.Fits first encoding input := by
  cases hstep with
  | @read source hasks =>
      obtain ⟨hcapacity, hfirst⟩ := capacity_fill r source
      obtain ⟨read, given, hsplit, hinput⟩ := h.split (isClosed_of_source hasks.source_eq)
      refine ⟨(encoding_fill r source).1.trans h.encoding_eq, hfirst.trans h.firstCapacity_eq, ?_,
        fun _ => ⟨_, given, hsplit.fill hasks.lineEnd_eq hasks.isOpen source, ?_⟩⟩
      · rw [hcapacity]
        exact h.makeRoom hasks
      · rw [List.append_assoc, ← (takes_fill hasks.source_eq hasks.isOpen).2, hinput]
  | line hsource hend =>
      obtain ⟨read, given, hsplit, hinput⟩ := h.split (isClosed_of_source hsource)
      exact ⟨h.encoding_eq, h.firstCapacity_eq, h.capacity_le,
        fun _ => ⟨read, _, hsplit.advance hend, hinput⟩⟩
  | last hsource hend hover hne =>
      obtain ⟨read, given, hsplit, hinput⟩ := h.split (isClosed_of_source hsource)
      exact ⟨h.encoding_eq, h.firstCapacity_eq, h.capacity_le,
        fun _ => ⟨read, _, hsplit.advanceAll hend hover hne, hinput⟩⟩
  | stop => exact h.close

/-- A reader that has read nothing but the bytes `front` that were put in front. -/
structure Unread (source : Source) (front : Bytes) (r : LineReader) : Prop where
  capacity_eq : r.capacity = r.firstCapacity
  split : r.isClosed = false → r.source = some source ∧ r.atEnd = false ∧
    ∃ given, r.HasSplit front given

/-- A reader that has read nothing yet has its first buffer, and all its input ahead. -/
theorem Unread.fits (h : r.Unread source front) (hencoding : r.encoding = encoding)
    (hfirst : r.firstCapacity = first) : r.Fits first encoding (front ++ source.content) where
  encoding_eq := hencoding
  firstCapacity_eq := hfirst
  capacity_le := by
    rw [h.capacity_eq, hfirst]
    exact Nat.le_max_left _ _
  split hclosed := by
    obtain ⟨hsource, hopen, given, hsplit⟩ := h.split hclosed
    exact ⟨front, given, hsplit, by rw [(ahead_of_open hsource hopen).2]⟩

/-- Bytes that a reader is given before its first read come in front of its source. -/
theorem Unread.append (h : r.Unread source front) (bytes : Bytes) :
    (r.append bytes).Unread source (front ++ bytes) where
  capacity_eq := h.capacity_eq
  split hclosed := by
    obtain ⟨hsource, hopen, given, hsplit⟩ := h.split hclosed
    exact ⟨hsource, hopen, given, hsplit.append hopen bytes⟩

/-- A closed reader has its first buffer, and no input is left to account for. -/
theorem unread_close (r : LineReader) (source : Source) (front : Bytes) :
    r.close.Unread source front where
  capacity_eq := rfl
  split hopen := by cases hopen

/-- A call that makes no read leaves everything unread. -/
theorem Unread.next (h : r.Unread source front) (hquiet : r.tracedNext.1 = []) :
    r.next.2.Unread source front := by
  rw [← tracedNext_snd]
  revert hquiet
  fun_cases LineReader.tracedNext r with
  | case1 hsource => exact fun _ => h
  | case2 source' hsource e hend =>
      refine fun _ => ⟨h.capacity_eq, fun hclosed => ?_⟩
      obtain ⟨hsource', hopen, given, hsplit⟩ := h.split hclosed
      exact ⟨hsource', hopen, _, hsplit.advance hend⟩
  | case3 source' hsource hend hover hempty | case4 source' hsource hend hover hempty =>
      obtain ⟨-, hopen, -⟩ := h.split (isClosed_of_source hsource)
      rw [hover] at hopen
      cases hopen
  | case5 | case6 => exact fun hquiet => nomatch hquiet

/-- **A reader that is seeded only before its first read** has not read yet, or the input is
what it was given and what its source gives. -/
theorem SeededFirst.fits {answers : List (Except Text Bytes)}
    (h : SeededFirst start front answers r) (hstart : start.Unread source []) :
    r.Fits start.firstCapacity start.encoding (front ++ source.content) ∧
      (answers = [] → r.Unread source front) := by
  induction h with
  | start => exact ⟨hstart.fits rfl rfl, fun _ => hstart⟩
  | seed _ bytes ih =>
      have hunread := (ih.2 rfl).append bytes
      exact ⟨hunread.fits ih.1.encoding_eq ih.1.firstCapacity_eq, fun _ => hunread⟩
  | call _ ih =>
      refine ⟨keeps_of_steps (fun _ _ hstep hfits => hfits.step hstep) (steps_next _) ih.1, ?_⟩
      intro hnone
      obtain ⟨hbefore, hquiet⟩ := List.append_eq_nil_iff.mp hnone
      exact (ih.2 hbefore).next hquiet
  | reset _ ih => exact ⟨ih.1.close, fun _ => unread_close _ _ _⟩

/-- The longest line bounds the capacity in front of every read as well. -/
theorem Unread.fits_of_rounds {answers : List (Except Text Bytes)}
    (hunread : start.Unread source []) (hseeded : SeededFirst start front answers r)
    (hrounds : Rounds ReadsOn n r s) :
    s.Fits start.capacity start.encoding (front ++ source.content) := by
  rw [hunread.capacity_eq]
  exact keeps_of_steps (fun _ _ hstep hfits => hfits.step hstep) (steps_of_rounds hrounds)
    (hseeded.fits hunread).1

/-- How the buffer of a reader grows that begins as `start` and reads from `source`. -/
structure GrowsSafely (start : LineReader) (source : Source) : Prop where
  /-- Every read of a call is made where a reader asks for it. -/
  asks : ∀ {r answer}, Relation.ReflTransGen Uses start r → answer ∈ r.tracedNext.1 →
    ∃ s left, Passes start s ∧ s.Asks left ∧ answer = (left.read s.makeRoom.request).1
  safe : ∀ {s left}, Passes start s → s.Asks left → s.SafeRead start.capacity left
  /-- The capacity does not shrink until the reader is closed. -/
  capacity_le : ∀ {s s'}, Passes start s → Passes s s' → s'.isClosed = false →
    s.capacity.units ≤ s'.capacity.units
  /-- The longest line of what is put in front of the source and of what the source gives
  bounds the capacity. -/
  bounded : ∀ {front answers r n s}, SeededFirst start front answers r → Rounds ReadsOn n r s →
    s.capacity.units ≤
      max start.capacity.units (2 * longestLine start.encoding (front ++ source.content) + 6)
  bounded_read : ∀ {front answers r n s left}, SeededFirst start front answers r →
    Rounds ReadsOn n r s → s.Asks left → s.makeRoom.capacity.units ≤
      max start.capacity.units (2 * longestLine start.encoding (front ++ source.content) + 6)

/-- **A reader that begins with a sound buffer and nothing read uses it safely.** -/
theorem growsSafely_of_unread (hsound : start.Sound start.capacity)
    (hunread : start.Unread source []) : start.GrowsSafely source := by
  refine ⟨?_, ?_, ?_, ?_, ?_⟩
  · intro r answer huses hanswer
    obtain ⟨n, s, left, hrounds, hasks, heq⟩ := exists_asks_of_mem_tracedNext hanswer
    exact ⟨s, left, ⟨r, n, huses, hrounds⟩, hasks, heq⟩
  · intro s left hpasses hasks
    exact (hpasses.sound hsound).safeRead left
  · intro s s' hpasses hlater hopen
    exact hlater.capacity_le hopen
  · intro front answers r n s hseeded hrounds
    exact (hunread.fits_of_rounds hseeded hrounds).capacity_le
  · intro front answers r n s left hseeded hrounds hasks
    exact (hunread.fits_of_rounds hseeded hrounds).makeRoom hasks

end LineReader

/-- A new reader begins with a sound buffer. -/
theorem LineReader.sound_ofSource (source : Source) (encoding : FileEncoding) (page : CodePage)
    (capacity : Capacity) : (ofSource source encoding page capacity).Sound capacity :=
  ⟨rfl, ⟨0, (Nat.mul_one _).symm⟩, encoding.unitSize_pos⟩

/-- A new reader has read nothing. -/
theorem LineReader.unread_ofSource (source : Source) (encoding : FileEncoding) (page : CodePage)
    (capacity : Capacity) : (ofSource source encoding page capacity).Unread source [] :=
  ⟨rfl, fun _ => ⟨rfl, rfl, [], hasSplit_ofSource source encoding page capacity⟩⟩

/-- **The buffer of a line reader grows safely**, and no further than the longest line needs. -/
theorem LineReader.growsSafely_ofSource (source : Source) (encoding : FileEncoding)
    (page : CodePage) (capacity : Capacity) :
    (ofSource source encoding page capacity).GrowsSafely source :=
  growsSafely_of_unread (sound_ofSource source encoding page capacity)
    (unread_ofSource source encoding page capacity)

/-- The bound is reached: a line of one unit and the carriage return behind it fill a buffer of
four units so far that it is doubled. -/
example : (LineReader.ofSource ⟨[.data [0x41, 0x0D], .data [0x42]], none⟩ .narrow .utf8
    (.ofNat 4)).next.2.capacity.units = 2 * longestLine .narrow [0x41, 0x0D, 0x42] + 6 := by
  cbv

end RegistryText
