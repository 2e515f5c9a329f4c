import RegistryText.Lines.Supply
import RegistryText.Proofs.Lines.File
import RegistryText.Proofs.Lines.Reading

/-!
# The plain split

With all bytes of a text at hand its lines are easily found: take its whole code units,
split them at the ends of lines, and decode the bytes of each line.  `plainLines` does
this, and knows nothing of reads and buffers.

**A line reader comes to the same** (`splitsInto_plainLines`), whatever the pieces in
which its source gives the bytes, the interruptions between them, the first capacity of
its buffer, and the bytes that it was given before its first read.  Behind a number of
`calls` it has given as many lines, or all of them and is closed; and the reads it has
made for them are pieces of the bytes, or all pieces and the empty read behind them.  So
nothing is read behind the empty one.
-/

namespace RegistryText

/-! ### All bytes at hand -/

/-- The bytes of each whole code unit; a lone byte at the end is dropped. -/
def FileEncoding.unitsOf : FileEncoding → Bytes → List Bytes
  | .narrow, bytes => bytes.map ([·])
  | .wide, a :: b :: rest => [a, b] :: FileEncoding.wide.unitsOf rest
  | .wide, _ => []

/-- The lines of bytes that are all at hand. -/
def plainLines (encoding : FileEncoding) (page : CodePage) (bytes : Bytes) : List Text :=
  (linesOf (encoding.bytesOf [carriageReturn]) (encoding.bytesOf [lineFeed])
    (encoding.unitsOf bytes)).map fun line => encoding.decode page line.flatten

/-- The bytes of a wide unit. -/
theorem littleEndian_unit (a b : UInt8) :
    Utf16.littleEndian [ByteOrder.little.unit a b] = [a, b] := by
  have ha := a.toNat_lt
  have hb := b.toNat_lt
  have hunit : (ByteOrder.little.unit a b).toNat = a.toNat + 256 * b.toNat := by
    simp only [ByteOrder.unit, UInt16.toNat_ofNat']
    omega
  simp only [Utf16.littleEndian, List.flatMap_cons, List.flatMap_nil, List.append_nil, hunit,
    List.cons.injEq, and_true, ← UInt8.toNat_inj, UInt8.toNat_ofNat']
  omega

theorem unitsOf_wide (bytes : Bytes) : FileEncoding.wide.unitsOf bytes =
    (Utf16.wholeUnits bytes).1.map fun u => Utf16.littleEndian [u] := by
  fun_induction Utf16.wholeUnits bytes with
  | case1 => rfl
  | case2 a => rfl
  | case3 a b rest r ih =>
      rw [FileEncoding.unitsOf, ih, List.map_cons, littleEndian_unit]

/-- **The plain split cuts between code units.** -/
theorem plainLines_eq (encoding : FileEncoding) (page : CodePage) (bytes : Bytes) :
    plainLines encoding page bytes =
      (linesOf carriageReturn lineFeed (encoding.wholeUnits bytes).1).map
        (encoding.decodeUnits page) := by
  cases encoding with
  | narrow =>
      have hletters : linesOf [0x0D] [0x0A] (bytes.map ([·])) =
          (linesOf 0x0D 0x0A bytes).map (List.map ([·])) :=
        linesOf_map (fun a b h => List.singleton_inj.mp h) bytes
      have hflatten : ∀ line : Bytes, (line.map ([·])).flatten = line := by
        intro line
        rw [← List.flatMap_def, List.flatMap_singleton']
      have hcr : FileEncoding.narrow.bytesOf [carriageReturn] = [0x0D] := by decide
      have hlf : FileEncoding.narrow.bytesOf [lineFeed] = [0x0A] := by decide
      rw [plainLines, hcr, hlf, FileEncoding.unitsOf, hletters, FileEncoding.wholeUnits,
        linesOf_map_toUInt16, List.map_map, List.map_map]
      refine List.map_congr_left fun line _ => ?_
      rw [Function.comp_apply, Function.comp_apply, hflatten, decodeUnits_map_toUInt16]
      rfl
  | wide =>
      have hinjective : ∀ u v : UInt16, Utf16.littleEndian [u] = Utf16.littleEndian [v] →
          u = v := by
        intro u v h
        have hunits := congrArg Utf16.wholeUnits h
        rw [Utf16.wholeUnits_littleEndian, Utf16.wholeUnits_littleEndian] at hunits
        simpa using hunits
      have hflatten : ∀ line : List UInt16,
          (line.map fun u => Utf16.littleEndian [u]).flatten = Utf16.littleEndian line := by
        intro line
        rw [← List.flatMap_def]
        simp [Utf16.littleEndian]
      rw [plainLines, unitsOf_wide, FileEncoding.bytesOf, FileEncoding.bytesOf,
        linesOf_map hinjective, List.map_map]
      refine List.map_congr_left fun line _ => ?_
      rw [Function.comp_apply, hflatten]
      rfl

namespace LineReader

/-! ### Bytes in front of the source -/

/-- Bytes put behind others are put there at once. -/
theorem append_append (r : LineReader) (front bytes : Bytes) :
    (r.append front).append bytes = r.append (front ++ bytes) := by
  simp only [append, ← List.append_assoc r.half.toList, r.encoding.wholeUnits_append (_ ++ front),
    r.encoding.half_wholeUnits_append (_ ++ front)]
  rw [List.append_assoc]

/-- A reader that is given bytes, piece by piece, before it reads any. -/
def seeded (seeds : List Bytes) (r : LineReader) : LineReader :=
  seeds.foldl append r

/-- A new reader that is given no bytes is as it was. -/
theorem append_nil_ofSource (source : Source) (encoding : FileEncoding) (page : CodePage)
    (capacity : Capacity) :
    (ofSource source encoding page capacity).append [] =
      ofSource source encoding page capacity := by
  simp [append, ofSource]

/-- A new reader may be given its bytes all at once. -/
theorem seeded_ofSource (seeds : List Bytes) (source : Source) (encoding : FileEncoding)
    (page : CodePage) (capacity : Capacity) :
    (ofSource source encoding page capacity).seeded seeds =
      (ofSource source encoding page capacity).append seeds.flatten := by
  have happend : ∀ (seeds : List Bytes) (r : LineReader) (front : Bytes),
      (r.append front).seeded seeds = r.append (front ++ seeds.flatten) := by
    intro seeds
    induction seeds with
    | nil => intro r front; rw [List.flatten_nil, List.append_nil]; rfl
    | cons seed seeds ih =>
        intro r front
        show ((r.append front).append seed).seeded seeds = _
        rw [append_append, ih, List.append_assoc, List.flatten_cons]
  rw [← append_nil_ofSource, happend, append_append]

/-! ### Many calls -/

/-- The reader behind a number of calls. -/
def calls (r : LineReader) : Nat → LineReader
  | 0 => r
  | k + 1 => (r.calls k).next.2

theorem calls_next (r : LineReader) (k : Nat) : r.next.2.calls k = r.calls (k + 1) := by
  induction k with
  | zero => rfl
  | succ k ih => exact congrArg (fun r' : LineReader => r'.next.2) ih

variable {r : LineReader} {units : List UInt16}

/-- What a reader of `units` has become behind `k` of their lines: it faces those that are left. -/
structure HasGiven (r : LineReader) (units : List UInt16) (k : Nat) (r' : LineReader) : Prop where
  le : k ≤ (linesOf carriageReturn lineFeed units).length
  ahead : ∃ rest, r'.Faces rest ∧
    linesOf carriageReturn lineFeed rest = (linesOf carriageReturn lineFeed units).drop k
  lineNumber : r'.lineNumber = r.lineNumber + k
  encoding : r'.encoding = r.encoding
  page : r'.page = r.page

/-- What a reader of `units` has become behind all their lines: it is closed. -/
structure HasEnded (r : LineReader) (units : List UInt16) (r' : LineReader) : Prop where
  source : r'.source = none
  lineNumber : r'.lineNumber = r.lineNumber + (linesOf carriageReturn lineFeed units).length

/-- A call gives one more line, or finds that there is none left. -/
theorem HasGiven.next {r' : LineReader} {k : Nat} (h : r.HasGiven units k r') :
    r.HasGiven units (k + 1) r'.next.2 ∨
      k = (linesOf carriageReturn lineFeed units).length ∧ r.HasEnded units r'.next.2 := by
  obtain ⟨rest, hrest, hleft⟩ := h.ahead
  rcases next_of_faces hrest with ⟨rfl, r'', hnext, hclosed, hsame⟩ |
    ⟨line, behind, r'', hlines, hnext, hbehind, hnumber, hencoding, hpage⟩
  · have hall : k = (linesOf carriageReturn lineFeed units).length :=
      Nat.le_antisymm h.le (List.drop_eq_nil_iff.mp hleft.symm)
    rw [hnext]
    refine Or.inr ⟨hall, hclosed, ?_⟩
    rw [hsame, h.lineNumber, ← hall]
  · rw [hlines] at hleft
    have hlength := congrArg List.length hleft
    simp only [List.length_cons, List.length_drop] at hlength
    have htail : linesOf carriageReturn lineFeed behind =
        (linesOf carriageReturn lineFeed units).drop (k + 1) := by
      rw [← List.tail_drop, ← hleft, List.tail_cons]
    rw [hnext]
    exact Or.inl {
      le := by omega
      ahead := ⟨behind, hbehind, htail⟩
      lineNumber := by rw [hnumber, h.lineNumber, Nat.add_assoc]
      encoding := hencoding.trans h.encoding
      page := hpage.trans h.page }

/-- **Behind `k` calls a reader has given `k` lines**, or there have been fewer. -/
theorem calls_of_faces (h : r.Faces units) (k : Nat) : r.HasGiven units k (r.calls k) ∨
    (linesOf carriageReturn lineFeed units).length < k ∧ r.HasEnded units (r.calls k) := by
  induction k with
  | zero => exact Or.inl ⟨Nat.zero_le _, ⟨units, h, rfl⟩, rfl, rfl, rfl⟩
  | succ k ih =>
      rw [calls]
      rcases ih with hgiven | ⟨hfewer, hended⟩
      · rcases hgiven.next with hmore | ⟨hall, hended⟩
        · exact Or.inl hmore
        · exact Or.inr ⟨by omega, hended⟩
      · rw [next_of_closed hended.source]
        exact Or.inr ⟨by omega, hended⟩

/-- The lines that a reader gives of the units that it faces. -/
theorem next_calls_of_faces (h : r.Faces units) (k : Nat) : (r.calls k).next.1 =
    .ok ((linesOf carriageReturn lineFeed units).map (r.encoding.decodeUnits r.page))[k]? := by
  rw [List.getElem?_map]
  rcases calls_of_faces h k with hgiven | ⟨hfewer, hended⟩
  · obtain ⟨rest, hrest, hleft⟩ := hgiven.ahead
    have hhead : (linesOf carriageReturn lineFeed units)[k]? =
        (linesOf carriageReturn lineFeed rest).head? := by
      rw [hleft, List.head?_drop]
    rcases next_of_faces hrest with ⟨rfl, r', hnext, -⟩ | ⟨line, behind, r', hlines, hnext, -⟩
    · rw [hnext, hhead]
      rfl
    · rw [hnext, hhead, hlines, hgiven.encoding, hgiven.page]
      rfl
  · rw [next_of_closed hended.source, List.getElem?_eq_none (Nat.le_of_lt hfewer)]
    rfl

theorem drainOnto_of_line {r' : LineReader} {answers : List (Except Text Text)} {line : Text}
    (h : r.next = (.ok (some line), r')) :
    r.drainOnto answers = r'.drainOnto (.ok line :: answers) := by
  rw [drainOnto]
  split <;> simp_all

theorem drainOnto_of_none {r' : LineReader} {answers : List (Except Text Text)}
    (h : r.next = (.ok none, r')) : r.drainOnto answers = (answers.reverse, r') := by
  rw [drainOnto]
  split <;> simp_all

/-- A reader is drained by as many calls as it has lines, and one. -/
theorem drainOnto_of_calls {lines : List Text} {answers : List (Except Text Text)}
    (h : ∀ k, (r.calls k).next.1 = .ok lines[k]?) :
    r.drainOnto answers = (answers.reverse ++ lines.map .ok, r.calls (lines.length + 1)) := by
  induction lines generalizing r answers with
  | nil =>
      have hnext : r.next = (.ok none, r.next.2) := Prod.ext (h 0) rfl
      rw [drainOnto_of_none hnext, List.map_nil, List.append_nil]
      rfl
  | cons line lines ih =>
      have hnext : r.next = (.ok (some line), r.next.2) := Prod.ext (h 0) rfl
      have hrest : ∀ k, (r.next.2.calls k).next.1 = .ok lines[k]? := by
        intro k
        rw [calls_next]
        exact h (k + 1)
      rw [drainOnto_of_line hnext, ih hrest, calls_next]
      simp

/-! ### The reads of a call -/

/-- The next line, and the answers of the reads that are made for it. -/
def tracedNext (r : LineReader) :
    List (Except Text Bytes) × Except Text (Option Text) × LineReader :=
  match hsource : r.source with
  | none => ([], .ok none, r)
  | some source =>
      match r.lineEnd? with
      | some e => ([], .ok (some (r.textOf e.stop)), r.advance e.next)
      | none =>
          if hend : r.atEnd then
            if r.pending.isEmpty then ([], .ok none, r.close)
            else ([], .ok (some (r.textOf r.pending.length)), r.advanceAll)
          else
            match hfill : r.fill source with
            | (some message, r') => ([(source.read r.makeRoom.request).1], .error message, r')
            | (none, r') =>
                have : r'.unread < r.unread :=
                  unread_fill hsource (Bool.not_eq_true _ ▸ hend) hfill
                r'.tracedNext.map ((source.read r.makeRoom.request).1 :: ·) id
termination_by r.unread

/-- Without its reads a traced call is a call. -/
theorem tracedNext_snd (r : LineReader) : r.tracedNext.2 = r.next := by
  fun_induction tracedNext r with
  | case1 r hsource => rw [next_of_closed hsource]
  | case2 r source hsource e hend => rw [next_of_lineEnd hsource hend]
  | case3 r source hsource hend hover hempty => rw [next_of_atEnd hsource hend hover, if_pos hempty]
  | case4 r source hsource hend hover hempty => rw [next_of_atEnd hsource hend hover, if_neg hempty]
  | case5 r source hsource hend hopen message r' hfill =>
      rw [next_of_failed_fill hsource hend (by simpa using hopen) hfill]
  | case6 r source hsource hend hopen r' hfill hless ih =>
      rw [next_of_fill hsource hend (by simpa using hopen) hfill]
      exact ih

/-- The answers of the reads of a number of calls. -/
def reads (r : LineReader) : Nat → List (Except Text Bytes)
  | 0 => []
  | k + 1 => r.reads k ++ (r.calls k).tracedNext.1

/-- What a reader has read of bytes: pieces of which none is empty, and its source delivers
the others; or all of them and then an empty read, which was the last one. -/
inductive HasRead (bytes : Bytes) (r : LineReader) : List (Except Text Bytes) → Prop
  | pieces {pieces : List Bytes} {left : Bytes} {source : Source}
      (nonempty : ∀ piece ∈ pieces, piece ≠ []) (isOpen : r.atEnd = false)
      (isSource : r.source = some source) (delivers : source.Delivers left)
      (bytes_eq : pieces.flatten ++ left = bytes) : HasRead bytes r (pieces.map .ok)
  | all {pieces : List Bytes} (nonempty : ∀ piece ∈ pieces, piece ≠ [])
      (atEnd : r.atEnd = true) (bytes_eq : pieces.flatten = bytes) :
      HasRead bytes r (pieces.map .ok ++ [.ok []])

variable {bytes : Bytes} {answers : List (Except Text Bytes)}

/-- What has been read does not depend on what becomes of it. -/
theorem HasRead.congr {r' : LineReader} (h : r.HasRead bytes answers)
    (hsource : r'.source = r.source) (hatEnd : r'.atEnd = r.atEnd) : r'.HasRead bytes answers := by
  cases h with
  | pieces nonempty isOpen isSource delivers bytes_eq =>
      exact .pieces nonempty (hatEnd.trans isOpen) (hsource.trans isSource) delivers bytes_eq
  | all nonempty atEnd bytes_eq => exact .all nonempty (hatEnd.trans atEnd) bytes_eq

/-- A read that is made before the end gives the next piece or the end. -/
theorem HasRead.fill {source : Source} (h : r.HasRead bytes answers)
    (hsource : r.source = some source) (hopen : r.atEnd = false) :
    ∃ r', r.fill source = (none, r') ∧
      r'.HasRead bytes (answers ++ [(source.read r.makeRoom.request).1]) := by
  cases h with
  | all nonempty atEnd bytes_eq =>
      rw [hopen] at atEnd
      cases atEnd
  | @pieces pieces left source' nonempty isOpen isSource delivers bytes_eq =>
      obtain rfl : source = source' := by simpa [hsource] using isSource
      obtain ⟨given, behind, rest, hread, rfl, -, hempty, hrest⟩ :=
        delivers.read r.request_makeRoom_pos
      refine ⟨(r.makeRoom.receive (.ok given, rest)).2, by rw [LineReader.fill, hread]; rfl, ?_⟩
      have hended : (r.makeRoom.receive (.ok given, rest)).2.atEnd = given.isEmpty := by
        simp [receive, append, makeRoom, hopen]
      rw [hread]
      by_cases hgiven : given = []
      · subst hgiven
        rw [hempty rfl, List.append_nil, List.append_nil] at bytes_eq
        exact .all nonempty hended bytes_eq
      · have hpieces : ∀ piece ∈ pieces ++ [given], piece ≠ [] := by
          intro piece hpiece
          rcases List.mem_append.mp hpiece with hold | hnew
          · exact nonempty piece hold
          · rw [List.mem_singleton.mp hnew]
            exact hgiven
        have hanswers : pieces.map .ok ++ [(.ok given : Except Text Bytes)] =
            (pieces ++ [given]).map .ok := by
          rw [List.map_append, List.map_singleton]
        rw [hanswers]
        refine .pieces hpieces ?_ rfl (hrest hgiven) ?_
        · rw [hended]
          simpa using hgiven
        · rw [List.flatten_append, List.flatten_singleton, List.append_assoc]
          exact bytes_eq

/-- **A call reads on from where the last one stopped, and never behind the empty read.** -/
theorem HasRead.tracedNext (h : r.HasRead bytes answers) :
    r.tracedNext.2.2.HasRead bytes (answers ++ r.tracedNext.1) := by
  fun_induction LineReader.tracedNext r generalizing answers with
  | case1 r hsource => simpa using h
  | case2 r source hsource e hend | case4 r source hsource hend hover hempty =>
      rw [List.append_nil]
      exact h.congr rfl rfl
  | case3 r source hsource hend hover hempty =>
      cases h with
      | pieces nonempty isOpen isSource delivers bytes_eq =>
          rw [isOpen] at hover
          cases hover
      | all nonempty atEnd bytes_eq =>
          rw [List.append_nil]
          exact .all nonempty rfl bytes_eq
  | case5 r source hsource hend hopen message r' hfill =>
      obtain ⟨r'', hfill', -⟩ := h.fill hsource (by simpa using hopen)
      rw [hfill] at hfill'
      cases hfill'
  | case6 r source hsource hend hopen r' hfill hless ih =>
      obtain ⟨r'', hfill', hread⟩ := h.fill hsource (by simpa using hopen)
      obtain rfl : r' = r'' := by simpa [hfill] using hfill'
      have hmore := ih hread
      rw [List.append_assoc] at hmore
      exact hmore

theorem HasRead.calls (h : r.HasRead bytes []) (k : Nat) :
    (r.calls k).HasRead bytes (r.reads k) := by
  induction k with
  | zero => exact h
  | succ k ih =>
      have hnext := ih.tracedNext
      rwa [tracedNext_snd] at hnext

/-! ### The plain split of a delivered text -/

/-- What calls of a reader give: lines, one by one, and then nothing, while it makes reads
of which none is empty, and none behind the empty one at the end of the bytes. -/
structure SplitsInto (r : LineReader) (bytes : Bytes) (lines : List Text) : Prop where
  drain : r.drain = (lines.map .ok, r.calls (lines.length + 1))
  next : ∀ k, (r.calls k).next.1 = .ok lines[k]?
  lineNumber : ∀ k, (r.calls k).lineNumber = min k lines.length
  isClosed_iff : ∀ k, (r.calls k).isClosed = true ↔ lines.length < k
  reads : ∀ k, ∃ pieces : List Bytes, (∀ piece ∈ pieces, piece ≠ []) ∧
    (r.reads k = pieces.map .ok ∧ pieces.flatten <+: bytes ∧ k ≤ lines.length ∨
      r.reads k = pieces.map .ok ++ [.ok []] ∧ pieces.flatten = bytes)

/-- A reader that has given no line yet splits what it faces. -/
theorem splitsInto_of_faces (h : r.Faces units) (hread : r.HasRead bytes [])
    (hnumber : r.lineNumber = 0) : r.SplitsInto bytes
      ((linesOf carriageReturn lineFeed units).map (r.encoding.decodeUnits r.page)) where
  drain := drainOnto_of_calls (next_calls_of_faces h)
  next := next_calls_of_faces h
  lineNumber k := by
    rw [List.length_map]
    rcases calls_of_faces h k with hgiven | ⟨hfewer, hended⟩
    · have hle := hgiven.le
      rw [hgiven.lineNumber, hnumber]
      omega
    · rw [hended.lineNumber, hnumber]
      omega
  isClosed_iff k := by
    rw [List.length_map, isClosed, Option.isNone_iff_eq_none]
    rcases calls_of_faces h k with hgiven | ⟨hfewer, hended⟩
    · obtain ⟨rest, hrest, -⟩ := hgiven.ahead
      obtain ⟨source, -, hsource, -⟩ := hrest.ahead
      simp [hsource, hgiven.le]
    · exact ⟨fun _ => hfewer, fun _ => hended.source⟩
  reads k := by
    rw [List.length_map]
    have hpieces := hread.calls k
    generalize r.reads k = answers at hpieces
    cases hpieces with
    | @pieces pieces left source nonempty isOpen isSource delivers bytes_eq =>
        refine ⟨pieces, nonempty, Or.inl ⟨rfl, ⟨left, bytes_eq⟩, ?_⟩⟩
        rcases calls_of_faces h k with hgiven | ⟨-, hended⟩
        · exact hgiven.le
        · rw [hended.source] at isSource
          cases isSource
    | @all pieces nonempty atEnd bytes_eq => exact ⟨pieces, nonempty, Or.inr ⟨rfl, bytes_eq⟩⟩

end LineReader

/-- **A line reader equals the plain split** of the bytes that it was given before its first
read and of those that its source delivers. -/
theorem splitsInto_plainLines {source : Source} {bytes : Bytes} (h : source.Delivers bytes)
    (seeds : List Bytes) (encoding : FileEncoding) (page : CodePage) (capacity : Capacity) :
    ((LineReader.ofSource source encoding page capacity).seeded seeds).SplitsInto bytes
      (plainLines encoding page (seeds.flatten ++ bytes)) := by
  rw [LineReader.seeded_ofSource, plainLines_eq]
  have hfaces := LineReader.faces_append_ofSource h encoding page capacity seeds.flatten
  have hread : ((LineReader.ofSource source encoding page capacity).append
      seeds.flatten).HasRead bytes [] :=
    .pieces (List.forall_mem_nil _) rfl rfl h rfl
  exact LineReader.splitsInto_of_faces hfaces hread rfl

end RegistryText
