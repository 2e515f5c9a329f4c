import RegistryText.Lines.Reader
import RegistryText.Proofs.Lines.Delivery
import RegistryText.Proofs.Lines.Split

/-!
# What a line reader reads

A reader *faces* the code units that it has read and not given away, followed
by the whole units among the bytes that its source still delivers.  Where a
read ended, whether it cut a unit in two, how much of the buffer has been
searched and how large the buffer is cannot be seen in the units faced, and
`next_of_faces` says that nothing else matters: **the next line is the first
line of the units faced, and the reader then faces the others.**

What a reader *holds* is the part of this that does not depend on how the source
goes on: the bytes that are still to come may end or break off.

The search for the end of a line is treated first.  An end that it finds is the
first one, whatever is read later (`linesOf_of_find?`), and where it finds none
only the last unit can be one (`endFree_of_find?`).
-/

namespace RegistryText

theorem carriageReturn_ne_lineFeed : carriageReturn ≠ lineFeed := by
  decide

namespace LineEnd

/-- The end that the search finds ends the first line, whatever follows. -/
theorem linesOf_of_find? {atEnd : Bool} {i : Nat} {units more : List UInt16} {e : LineEnd}
    (h : find? atEnd i units = some e) (hmore : atEnd = true → more = []) :
    i ≤ e.stop ∧ e.stop < e.next ∧ e.next ≤ i + units.length ∧
      linesOf carriageReturn lineFeed (units ++ more) =
        units.take (e.stop - i) ::
          linesOf carriageReturn lineFeed (units.drop (e.next - i) ++ more) := by
  induction units generalizing i with
  | nil => cases h
  | cons u rest ih =>
      unfold find? at h
      split at h
      next hlf =>
        cases h
        subst hlf
        refine ⟨Nat.le_refl i, Nat.lt_succ_self i, by simp, ?_⟩
        simpa using linesOf_lf (rest ++ more)
      split at h
      next hcr =>
        subst hcr
        split at h
        · split at h
          next hatEnd =>
            cases h
            refine ⟨Nat.le_refl i, Nat.lt_succ_self i, by simp, ?_⟩
            rw [hmore hatEnd]
            simp [linesOf]
          · cases h
        next v rest' =>
          cases h
          refine ⟨Nat.le_refl i, by simp only; split <;> omega, by simp; split <;> omega, ?_⟩
          rw [List.cons_append, linesOf_cr carriageReturn_ne_lineFeed]
          by_cases hv : v = lineFeed <;> simp [dropLineFeed, hv]
      next hlf hcr =>
        obtain ⟨hstop, hlt, hnext, hlines⟩ := ih h
        have hstop' : e.stop - i = e.stop - (i + 1) + 1 := by omega
        have hnext' : e.next - i = e.next - (i + 1) + 1 := by omega
        refine ⟨by omega, hlt, by simp only [List.length_cons]; omega, ?_⟩
        rw [List.cons_append, linesOf_cons ⟨hcr, hlf⟩, hlines, hstop', hnext']
        rfl

/-- Where no end is found, only a carriage return in the last unit can be one,
and at the end of the input not even that. -/
theorem endFree_of_find? {atEnd : Bool} {i : Nat} {units : List UInt16}
    (h : find? atEnd i units = none) :
    EndFree carriageReturn lineFeed units.dropLast ∧
      (atEnd = true → EndFree carriageReturn lineFeed units) := by
  induction units generalizing i with
  | nil => simp
  | cons u rest ih =>
      unfold find? at h
      split at h
      · cases h
      next hlf =>
        split at h
        next hcr =>
          cases rest with
          | nil => simp_all
          | cons v rest => cases h
        next hcr =>
          obtain ⟨hlast, hall⟩ := ih h
          cases rest with
          | nil => simpa using fun _ => ⟨hcr, hlf⟩
          | cons v rest =>
              rw [List.dropLast_cons_cons]
              exact ⟨endFree_cons.mpr ⟨⟨hcr, hlf⟩, hlast⟩,
                fun hatEnd => endFree_cons.mpr ⟨⟨hcr, hlf⟩, hall hatEnd⟩⟩

end LineEnd

namespace FileEncoding

/-- The whole units of two pieces are those of the first one and those of the
second one behind the lone byte of the first. -/
theorem wholeUnits_append (encoding : FileEncoding) (front bytes : Bytes) :
    (encoding.wholeUnits (front ++ bytes)).1 =
      (encoding.wholeUnits front).1 ++
        (encoding.wholeUnits ((encoding.wholeUnits front).2.toList ++ bytes)).1 := by
  cases encoding with
  | narrow => simp [wholeUnits]
  | wide =>
      simp only [wholeUnits]
      fun_induction Utf16.wholeUnits front with
      | case1 => simp
      | case2 a => simp
      | case3 a b rest r ih => simp [Utf16.wholeUnits, ih, r]

/-- The lone byte of two pieces is that of the second one behind the lone byte of the first. -/
theorem half_wholeUnits_append (encoding : FileEncoding) (front bytes : Bytes) :
    (encoding.wholeUnits (front ++ bytes)).2 =
      (encoding.wholeUnits ((encoding.wholeUnits front).2.toList ++ bytes)).2 := by
  cases encoding with
  | narrow => rfl
  | wide =>
      simp only [wholeUnits]
      fun_induction Utf16.wholeUnits front with
      | case1 => rfl
      | case2 a => rfl
      | case3 a b rest r ih => exact ih

/-- A lone byte is no whole unit. -/
theorem wholeUnits_lone (encoding : FileEncoding) (bytes : Bytes) :
    (encoding.wholeUnits (encoding.wholeUnits bytes).2.toList).1 = [] := by
  cases encoding with
  | narrow => rfl
  | wide =>
      simp only [wholeUnits]
      fun_induction Utf16.wholeUnits bytes with
      | case1 => rfl
      | case2 a => rfl
      | case3 a b rest r ih => exact ih

@[simp] theorem wholeUnits_nil (encoding : FileEncoding) :
    encoding.wholeUnits [] = ([], none) := by
  cases encoding <;> rfl

theorem unitSize_pos (encoding : FileEncoding) : 0 < encoding.unitSize := by
  cases encoding <;> decide

end FileEncoding

namespace LineReader

/-- The reader faces `units`: it has read a beginning of them and its source
delivers the bytes of the others. -/
structure Faces (r : LineReader) (units : List UInt16) : Prop where
  scanned_le : r.scanned ≤ r.pending.length
  endFree : EndFree carriageReturn lineFeed (r.pending.take r.scanned)
  half : (r.encoding.wholeUnits r.half.toList).1 = []
  ahead : ∃ source bytes, r.source = some source ∧
    (r.atEnd = true → bytes = []) ∧ (r.atEnd = false → source.Delivers bytes) ∧
    units = r.pending ++ (r.encoding.wholeUnits (r.half.toList ++ bytes)).1

/-- At the end of the input the reader faces what it holds. -/
theorem Faces.eq_pending {r : LineReader} {units : List UInt16} (h : r.Faces units)
    (hatEnd : r.atEnd = true) : units = r.pending := by
  obtain ⟨source, bytes, hsource, hnil, hdelivers, rfl⟩ := h.ahead
  simp [hnil hatEnd, h.half]

/-- What the reader has read is a beginning of `units`, and the others are in `bytes`. -/
structure Holds (r : LineReader) (bytes : Bytes) (units : List UInt16) : Prop where
  scanned_le : r.scanned ≤ r.pending.length
  endFree : EndFree carriageReturn lineFeed (r.pending.take r.scanned)
  half : (r.encoding.wholeUnits r.half.toList).1 = []
  units_eq : units = r.pending ++ (r.encoding.wholeUnits (r.half.toList ++ bytes)).1

/-- A search that finds nothing leaves only the last unit in doubt, if there is no end in front
of it. -/
theorem endFree_dropLast {r : LineReader}
    (hfree : EndFree carriageReturn lineFeed (r.pending.take r.scanned))
    (hend : r.lineEnd? = none) : EndFree carriageReturn lineFeed r.pending.dropLast := by
  have hsearched := (LineEnd.endFree_of_find? hend).1
  rw [← List.take_append_drop r.scanned r.pending]
  by_cases hdrop : r.pending.drop r.scanned = []
  · rw [hdrop, List.append_nil]
    exact fun u hu => hfree u (List.dropLast_subset _ hu)
  · rw [List.dropLast_append_of_ne_nil hdrop]
    exact endFree_append.mpr ⟨hfree, hsearched⟩

theorem Holds.endFree_dropLast {r : LineReader} {bytes : Bytes} {units : List UInt16}
    (h : r.Holds bytes units) (hend : r.lineEnd? = none) :
    EndFree carriageReturn lineFeed r.pending.dropLast :=
  LineReader.endFree_dropLast h.endFree hend

/-- Room can always be made for a read of some bytes. -/
theorem request_makeRoom_pos (r : LineReader) : 0 < r.makeRoom.request := by
  have hroom := Capacity.three_le_grow_sub r.capacity r.pending.length
  have hunits : 0 < (r.capacity.grow r.pending.length).units - r.pending.length - 1 := by
    omega
  simpa [request, makeRoom] using Nat.mul_pos hunits r.encoding.unitSize_pos

/-- Bytes that are read move from the one side to the other. -/
theorem Holds.receive {r : LineReader} {given left : Bytes} {units : List UInt16}
    (h : r.Holds (given ++ left) units) (hend : r.lineEnd? = none) (rest : Source) :
    (r.makeRoom.receive (.ok given, rest)).2.Holds left units where
  scanned_le := by simp [LineReader.receive, append, makeRoom]; omega
  endFree := by
    have hlast := h.endFree_dropLast hend
    rw [List.dropLast_eq_take] at hlast
    simpa [LineReader.receive, append, makeRoom, List.take_append_of_le_length] using hlast
  half := r.encoding.wholeUnits_lone _
  units_eq := by
    rw [h.units_eq, ← List.append_assoc, r.encoding.wholeUnits_append]
    simp [LineReader.receive, append, makeRoom]

/-- A line whose end has been read is the first one, whatever follows; at the end of the
input nothing does. -/
theorem Holds.linesOf_of_lineEnd {r : LineReader} {bytes : Bytes} {units more : List UInt16}
    {e : LineEnd} (h : r.Holds bytes units) (hend : r.lineEnd? = some e)
    (hmore : r.atEnd = true → more = []) :
    linesOf carriageReturn lineFeed (r.pending ++ more) =
      r.pending.take e.stop :: linesOf carriageReturn lineFeed (r.pending.drop e.next ++ more) := by
  obtain ⟨hstop, hlt, hnext, hlines⟩ := LineEnd.linesOf_of_find? hend hmore
  have hfirst := linesOf_append_of_cons h.endFree hlines
  have hscanned := h.scanned_le
  rw [List.length_drop] at hnext
  rw [← List.append_assoc, List.take_append_drop, List.drop_drop] at hfirst
  rw [hfirst, show r.scanned + (e.next - r.scanned) = e.next by omega]
  rw [show e.stop = r.scanned + (e.stop - r.scanned) by omega, List.take_add,
    Nat.add_sub_cancel_left]

/-- Behind a line the reader holds what is left of the units that it has read. -/
theorem Holds.advance {r : LineReader} {bytes : Bytes} {units : List UInt16}
    (h : r.Holds bytes units) (count : Nat) :
    (r.advance count).Holds bytes
      (r.pending.drop count ++ (r.encoding.wholeUnits (r.half.toList ++ bytes)).1) where
  scanned_le := Nat.zero_le _
  endFree := by simp [LineReader.advance]
  half := h.half
  units_eq := rfl

/-- A reader of a fresh source has read nothing. -/
theorem holds_ofSource (source : Source) (encoding : FileEncoding) (page : CodePage)
    (capacity : Capacity) (bytes : Bytes) :
    (ofSource source encoding page capacity).Holds bytes (encoding.wholeUnits bytes).1 where
  scanned_le := Nat.le_refl 0
  endFree := endFree_nil
  half := by simp [ofSource]
  units_eq := rfl

/-- Bytes that have been read before come first. -/
theorem holds_append_ofSource (source : Source) (encoding : FileEncoding) (page : CodePage)
    (capacity : Capacity) (front bytes : Bytes) :
    ((ofSource source encoding page capacity).append front).Holds bytes
      (encoding.wholeUnits (front ++ bytes)).1 where
  scanned_le := Nat.zero_le _
  endFree := by simp [ofSource, append]
  half := encoding.wholeUnits_lone front
  units_eq := by simp [ofSource, append, encoding.wholeUnits_append front bytes]

/-- Whatever a reader faces, it holds a beginning of it. -/
theorem Faces.holds {r : LineReader} {units : List UInt16} (h : r.Faces units) :
    ∃ source bytes, r.source = some source ∧ (r.atEnd = true → bytes = []) ∧
      (r.atEnd = false → source.Delivers bytes) ∧ r.Holds bytes units := by
  obtain ⟨source, bytes, hsource, hnil, hdelivers, hunits⟩ := h.ahead
  exact ⟨source, bytes, hsource, hnil, hdelivers, h.scanned_le, h.endFree, h.half, hunits⟩

/-- A reader faces the units of which it holds a beginning, if its source delivers the
others. -/
theorem Holds.faces {r : LineReader} {bytes : Bytes} {units : List UInt16} {source : Source}
    (h : r.Holds bytes units) (hsource : r.source = some source)
    (hnil : r.atEnd = true → bytes = []) (hdelivers : r.atEnd = false → source.Delivers bytes) :
    r.Faces units :=
  ⟨h.scanned_le, h.endFree, h.half, source, bytes, hsource, hnil, hdelivers, h.units_eq⟩

/-- A reader of a fresh source faces the units of its bytes. -/
theorem faces_ofSource {source : Source} {bytes : Bytes} (h : source.Delivers bytes)
    (encoding : FileEncoding) (page : CodePage) (capacity : Capacity) :
    (ofSource source encoding page capacity).Faces (encoding.wholeUnits bytes).1 :=
  (holds_ofSource source encoding page capacity bytes).faces rfl (by simp [ofSource]) fun _ => h

/-- Bytes that have been read before come first. -/
theorem faces_append_ofSource {source : Source} {bytes : Bytes} (h : source.Delivers bytes)
    (encoding : FileEncoding) (page : CodePage) (capacity : Capacity) (front : Bytes) :
    ((ofSource source encoding page capacity).append front).Faces
      (encoding.wholeUnits (front ++ bytes)).1 :=
  (holds_append_ofSource source encoding page capacity front bytes).faces rfl
    (by simp [ofSource, append]) fun _ => h

/-- A read changes nothing about what the reader faces. -/
theorem Faces.fill {r : LineReader} {units : List UInt16} {source : Source} (h : r.Faces units)
    (hsource : r.source = some source) (hend : r.lineEnd? = none) (hopen : r.atEnd = false) :
    ∃ r', r.fill source = (none, r') ∧ r'.Faces units ∧ r'.lineNumber = r.lineNumber ∧
      r'.encoding = r.encoding ∧ r'.page = r.page := by
  obtain ⟨source', bytes, hsource', -, hdelivers, hholds⟩ := h.holds
  obtain rfl : source = source' := by simpa [hsource] using hsource'
  obtain ⟨given, left, rest, hread, rfl, -, hempty, hrest⟩ :=
    (hdelivers hopen).read r.request_makeRoom_pos
  have hended : (r.makeRoom.receive (.ok given, rest)).2.atEnd = given.isEmpty := by
    simp [receive, append, makeRoom, hopen]
  refine ⟨(r.makeRoom.receive (.ok given, rest)).2, ?_, ?_, rfl, rfl, rfl⟩
  · rw [LineReader.fill, hread]
    rfl
  · refine (hholds.receive hend rest).faces rfl ?_ ?_
    · rw [hended]
      simpa using hempty
    · rw [hended]
      simpa using hrest

/-- A line whose end has been read is the first one of the units faced. -/
theorem Faces.advance {r : LineReader} {units : List UInt16} {e : LineEnd} (h : r.Faces units)
    (hend : r.lineEnd? = some e) :
    ∃ rest, linesOf carriageReturn lineFeed units =
        r.pending.take e.stop :: linesOf carriageReturn lineFeed rest ∧
      (r.advance e.next).Faces rest := by
  obtain ⟨source, bytes, hsource, hnil, hdelivers, hholds⟩ := h.holds
  refine ⟨_, ?_, (hholds.advance e.next).faces hsource hnil hdelivers⟩
  rw [hholds.units_eq]
  refine hholds.linesOf_of_lineEnd hend fun hatEnd => ?_
  simp [hnil hatEnd, h.half]

/-- Behind a line that takes everything the reader faces nothing. -/
theorem Faces.advanceAll {r : LineReader} {units : List UInt16} (h : r.Faces units)
    (hatEnd : r.atEnd = true) : r.advanceAll.Faces [] := by
  obtain ⟨source, bytes, hsource, -⟩ := h.ahead
  exact {
    scanned_le := Nat.zero_le _
    endFree := by simp [LineReader.advanceAll, LineReader.advance]
    half := by simp [LineReader.advanceAll]
    ahead := ⟨source, [], hsource, fun _ => rfl,
      by simp [LineReader.advanceAll, LineReader.advance, hatEnd],
      by simp [LineReader.advanceAll, LineReader.advance]⟩ }

/-- **What the next line is.**  A reader that faces no unit answers that there
is no line and closes; every other one gives the first line of the units that
it faces, and faces what is behind. -/
theorem next_of_faces {r : LineReader} {units : List UInt16} (h : r.Faces units) :
    (units = [] ∧ ∃ r', r.next = (.ok none, r') ∧ r'.source = none ∧
      r'.lineNumber = r.lineNumber) ∨
    ∃ line rest r', linesOf carriageReturn lineFeed units =
        line :: linesOf carriageReturn lineFeed rest ∧
      r.next = (.ok (some (r.encoding.decodeUnits r.page line)), r') ∧ r'.Faces rest ∧
      r'.lineNumber = r.lineNumber + 1 ∧ r'.encoding = r.encoding ∧ r'.page = r.page := by
  fun_induction next r with
  | case1 r hclosed =>
      obtain ⟨source, bytes, hsource, -⟩ := h.ahead
      simp [hclosed] at hsource
  | case2 r source hsource e hend =>
      obtain ⟨rest, hlines, hrest⟩ := h.advance hend
      exact Or.inr ⟨_, rest, _, hlines, rfl, hrest, rfl, rfl, rfl⟩
  | case3 r source hsource hend hatEnd hempty =>
      refine Or.inl ⟨?_, r.close, rfl, rfl, rfl⟩
      rw [h.eq_pending hatEnd]
      simpa using hempty
  | case4 r source hsource hend hatEnd hempty =>
      have hfree : EndFree carriageReturn lineFeed r.pending := by
        rw [← List.take_append_drop r.scanned r.pending]
        exact endFree_append.mpr ⟨h.endFree, (LineEnd.endFree_of_find? hend).2 hatEnd⟩
      refine Or.inr ⟨r.pending, [], r.advanceAll, ?_, ?_, ?_, rfl, rfl, rfl⟩
      · rw [h.eq_pending hatEnd, linesOf_of_endFree hfree (by simpa using hempty)]
        rfl
      · simp [textOf]
      · exact h.advanceAll hatEnd
  | case5 r source hsource hend hopen message r' hfill =>
      obtain ⟨r'', hfill', -⟩ := h.fill hsource hend (by simpa using hopen)
      simp [hfill] at hfill'
  | case6 r source hsource hend hopen r' hfill hless ih =>
      obtain ⟨r'', hfill', hfaces, hnumber, hencoding, hpage⟩ :=
        h.fill hsource hend (by simpa using hopen)
      obtain rfl : r' = r'' := by simpa [hfill] using hfill'
      simpa [hnumber, hencoding, hpage] using ih hfaces

end LineReader

end RegistryText
