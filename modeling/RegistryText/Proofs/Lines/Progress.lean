import RegistryText.Proofs.Lines.Broken
import RegistryText.Proofs.Lines.Content
import RegistryText.Proofs.Lines.PlainSplit

/-!
# How far a line reader has come

At every moment the bytes that a reader has read are split in two: the lines that it has
given, and the units that it holds.  `HasSplit` says that **the lines of what has been read,
whatever follows, are the lines given and then the lines of what is held and what follows**.
It speaks of the past of the reader alone, so it holds of every source, whether its reads
fail or not, and every move of a call keeps it (`HasSplit.tracedNext`).

While a reader is open, the complete lines of what it has read are those that it has given and
those that it holds (`HasSplit.completeLines_read`), and a call that fails leaves none of them
behind (`HasSplit.failed_next`).  What is still to come is the content of its source and the
failures in front of the end; a read takes its own answer away from them (`takes_fill`).
-/

namespace RegistryText

/-- The results among answers. -/
def results {α : Type} (answers : List (Except Text α)) : List α :=
  answers.filterMap Except.toOption

/-- The message of an answer that is a failure. -/
def failure? {α : Type} : Except Text α → Option Text
  | .ok _ => none
  | .error message => some message

/-- The messages of the failures among answers. -/
def messagesIn {α : Type} (answers : List (Except Text α)) : List Text :=
  answers.filterMap failure?

section Answers

variable {α : Type} (answers more : List (Except Text α)) (a : α) (message : Text)

/-- Without answers there are no results. -/
@[simp] theorem results_nil : results ([] : List (Except Text α)) = [] := rfl

/-- An answer without a failure is a result. -/
@[simp] theorem results_ok : results (.ok a :: answers) = a :: results answers := rfl

/-- A failure is none. -/
@[simp] theorem results_error : results (.error message :: answers) = results answers := rfl

/-- Results come in the order of the answers. -/
@[simp] theorem results_append : results (answers ++ more) = results answers ++ results more :=
  List.filterMap_append

/-- Without answers there are no messages. -/
@[simp] theorem messagesIn_nil : messagesIn ([] : List (Except Text α)) = [] := rfl

/-- An answer without a failure has no message. -/
@[simp] theorem messagesIn_ok : messagesIn (.ok a :: answers) = messagesIn answers := rfl

/-- A failure has one. -/
@[simp] theorem messagesIn_error :
    messagesIn (.error message :: answers) = message :: messagesIn answers := rfl

/-- So do the messages. -/
@[simp] theorem messagesIn_append :
    messagesIn (answers ++ more) = messagesIn answers ++ messagesIn more :=
  List.filterMap_append

/-- Every answer is a result or a failure. -/
theorem length_results_add :
    (results answers).length + (messagesIn answers).length = answers.length := by
  induction answers with
  | nil => rfl
  | cons answer answers ih =>
      cases answer with
      | error message =>
          rw [results_error, messagesIn_error, List.length_cons, List.length_cons, ← ih]
          omega
      | ok a =>
          rw [results_ok, messagesIn_ok, List.length_cons, List.length_cons, ← ih]
          omega

end Answers

/-- A search passes over what holds no end of a line. -/
theorem LineEnd.find?_append_of_endFree {atEnd : Bool} {i : Nat} {front : List UInt16}
    (h : EndFree carriageReturn lineFeed front) (units : List UInt16) :
    find? atEnd i (front ++ units) = find? atEnd (i + front.length) units := by
  induction front generalizing i with
  | nil => rfl
  | cons u front ih =>
      obtain ⟨⟨hcr, hlf⟩, hfront⟩ := endFree_cons.mp h
      have hrest : find? atEnd i (u :: (front ++ units)) =
          find? atEnd (i + 1) (front ++ units) := by
        rw [find?.eq_def]
        simp only [if_neg hlf, if_neg hcr]
      rw [List.cons_append, hrest, ih hfront, List.length_cons, Nat.add_assoc, Nat.add_comm 1]

namespace LineReader

/-- A search that is taken up behind units without an end finds what one from the start finds. -/
theorem lineEnd?_eq_of_endFree {r : LineReader} (hle : r.scanned ≤ r.pending.length)
    (hfree : EndFree carriageReturn lineFeed (r.pending.take r.scanned)) :
    r.lineEnd? = LineEnd.find? r.atEnd 0 r.pending := by
  have hscanned : (r.pending.take r.scanned).length = r.scanned := List.length_take_of_le hle
  have hfind : LineEnd.find? r.atEnd 0 (r.pending.take r.scanned ++ r.pending.drop r.scanned) =
      LineEnd.find? r.atEnd (0 + (r.pending.take r.scanned).length) (r.pending.drop r.scanned) :=
    LineEnd.find?_append_of_endFree hfree _
  rw [List.take_append_drop, hscanned, Nat.zero_add] at hfind
  exact hfind.symm

/-- **A search that is taken up again finds what a search from the start would find.** -/
theorem Holds.lineEnd?_eq {r : LineReader} {bytes : Bytes} {units : List UInt16}
    (h : r.Holds bytes units) : r.lineEnd? = LineEnd.find? r.atEnd 0 r.pending :=
  lineEnd?_eq_of_endFree h.scanned_le h.endFree

/-- The answers of a number of calls. -/
def answers (r : LineReader) : Nat → List (Except Text (Option Text))
  | 0 => []
  | k + 1 => r.answers k ++ [(r.calls k).next.1]

/-- A reader has read `bytes` and has given the lines `given`, in units.  What is left is what
it holds and, unless the input is over, what follows. -/
structure HasSplit (r : LineReader) (bytes : Bytes) (given : List (List UInt16)) : Prop where
  holds : r.Holds [] r.pending
  half : r.atEnd = false → r.half = (r.encoding.wholeUnits bytes).2
  lines : ∀ more, (r.atEnd = true → more = []) →
    linesOf carriageReturn lineFeed ((r.encoding.wholeUnits bytes).1 ++ more) =
      given ++ linesOf carriageReturn lineFeed (r.pending ++ more)

variable {r : LineReader} {bytes : Bytes} {given : List (List UInt16)}

/-- A new reader has read nothing and given nothing. -/
theorem hasSplit_ofSource (source : Source) (encoding : FileEncoding) (page : CodePage)
    (capacity : Capacity) : (ofSource source encoding page capacity).HasSplit [] [] where
  holds := by
    have h := holds_ofSource source encoding page capacity []
    rwa [FileEncoding.wholeUnits_nil] at h
  half _ := by simp [ofSource]
  lines more _ := by simp [ofSource]

/-- Where a source is read from and whether its input is over does not matter as long as the
reader is open. -/
theorem HasSplit.withSource (h : r.HasSplit bytes given) (hopen : r.atEnd = false)
    (source : Option Source) (atEnd : Bool) :
    { r with source := source, atEnd := atEnd }.HasSplit bytes given where
  holds := ⟨h.holds.scanned_le, h.holds.endFree, h.holds.half, h.holds.units_eq⟩
  half _ := h.half hopen
  lines more _ := h.lines more (by simp [hopen])

/-- Bytes that are put behind those that have been read are held. -/
theorem HasSplit.append (h : r.HasSplit bytes given) (hopen : r.atEnd = false) (piece : Bytes) :
    (r.append piece).HasSplit (bytes ++ piece) given where
  holds := by
    have hscanned := h.holds.scanned_le
    refine ⟨?_, ?_, r.encoding.wholeUnits_lone _, ?_⟩
    · simp only [LineReader.append, List.length_append]
      omega
    · simpa only [LineReader.append, List.take_append_of_le_length hscanned] using h.holds.endFree
    · simp [LineReader.append, r.encoding.wholeUnits_lone]
  half _ := by
    rw [LineReader.append, h.half hopen]
    exact (r.encoding.half_wholeUnits_append bytes piece).symm
  lines more _ := by
    have hlines := h.lines ((r.encoding.wholeUnits (r.half.toList ++ piece)).1 ++ more)
      (by simp [hopen])
    simp only [LineReader.append]
    rw [r.encoding.wholeUnits_append, ← h.half hopen, List.append_assoc, List.append_assoc]
    exact hlines

/-- Room is made behind what is held. -/
theorem HasSplit.makeRoom (h : r.HasSplit bytes given) (hend : r.lineEnd? = none) :
    r.makeRoom.HasSplit bytes given where
  holds := by
    refine ⟨Nat.sub_le _ _, ?_, h.holds.half, h.holds.units_eq⟩
    have hlast := h.holds.endFree_dropLast hend
    rwa [List.dropLast_eq_take] at hlast
  half := h.half
  lines := h.lines

/-- What a fill has done: its read gave a piece, which was taken in, or it failed, and room has
been made for nothing. -/
theorem fill_cases (r : LineReader) (source : Source) :
    (∃ piece rest, source.read r.makeRoom.request = (.ok piece, rest) ∧
      r.fill source = (none, { r.makeRoom.append piece with
        source := some rest
        atEnd := r.atEnd || piece.isEmpty })) ∨
    ∃ message rest, source.read r.makeRoom.request = (.error message, rest) ∧
      r.fill source = (some message, { r.makeRoom with source := some rest }) := by
  rcases hread : source.read r.makeRoom.request with ⟨message | piece, rest⟩
  · exact Or.inr ⟨message, rest, rfl, by rw [fill, hread]; rfl⟩
  · exact Or.inl ⟨piece, rest, rfl, by rw [fill, hread]; rfl⟩

/-- A fill that fails nowhere has appended what one read gave. -/
theorem read_of_fill {r' : LineReader} {source : Source} (h : r.fill source = (none, r')) :
    ∃ piece rest, source.read r.makeRoom.request = (.ok piece, rest) ∧
      r' = { r.makeRoom.append piece with
        source := some rest
        atEnd := r.atEnd || piece.isEmpty } := by
  rcases fill_cases r source with ⟨piece, rest, hread, hfill⟩ | ⟨message, rest, -, hfill⟩
  · rw [hfill] at h
    cases h
    exact ⟨piece, rest, hread, rfl⟩
  · rw [hfill] at h
    cases h

/-- A fill that fails has made room, and has a message of its source. -/
theorem read_of_failed_fill {r' : LineReader} {source : Source} {message : Text}
    (h : r.fill source = (some message, r')) :
    ∃ rest, source.read r.makeRoom.request = (.error message, rest) ∧
      r' = { r.makeRoom with source := some rest } := by
  rcases fill_cases r source with ⟨piece, rest, -, hfill⟩ | ⟨message', rest, hread, hfill⟩
  · rw [hfill] at h
    cases h
  · rw [hfill] at h
    cases h
    exact ⟨rest, hread, rfl⟩

/-- A read puts what it gives behind what has been read. -/
theorem HasSplit.fill (h : r.HasSplit bytes given) (hend : r.lineEnd? = none)
    (hopen : r.atEnd = false) (source : Source) :
    (r.fill source).2.HasSplit
      (bytes ++ (results [(source.read r.makeRoom.request).1]).flatten) given := by
  have hroom := h.makeRoom hend
  rcases fill_cases r source with ⟨piece, rest, hread, hfill⟩ | ⟨message, rest, hread, hfill⟩
  · rw [hfill, hread, results_ok, results_nil, List.flatten_singleton]
    exact (hroom.append hopen piece).withSource hopen _ _
  · rw [hfill, hread, results_error, results_nil, List.flatten_nil, List.append_nil]
    exact hroom.withSource hopen _ _

/-- A line whose end has been read is given. -/
theorem HasSplit.advance {e : LineEnd} (h : r.HasSplit bytes given) (hend : r.lineEnd? = some e) :
    (r.advance e.next).HasSplit bytes (given ++ [r.pending.take e.stop]) where
  holds := by
    have hholds := h.holds.advance e.next
    rwa [List.append_nil, h.holds.half, List.append_nil] at hholds
  half := h.half
  lines more hmore := by
    refine (h.lines more hmore).trans ?_
    rw [h.holds.linesOf_of_lineEnd hend hmore, List.append_assoc]
    rfl

/-- The last line is given when the input is over. -/
theorem HasSplit.advanceAll (h : r.HasSplit bytes given) (hend : r.lineEnd? = none)
    (hover : r.atEnd = true) (hne : r.pending ≠ []) :
    r.advanceAll.HasSplit bytes (given ++ [r.pending]) where
  holds := by
    refine ⟨Nat.zero_le _, ?_, ?_, ?_⟩ <;> simp [LineReader.advanceAll, LineReader.advance]
  half hopen := by
    rw [show r.advanceAll.atEnd = r.atEnd from rfl, hover] at hopen
    cases hopen
  lines more hmore := by
    have hfree : EndFree carriageReturn lineFeed r.pending := by
      rw [← List.take_append_drop r.scanned r.pending]
      exact endFree_append.mpr ⟨h.holds.endFree, (LineEnd.endFree_of_find? hend).2 hover⟩
    obtain rfl : more = [] := hmore hover
    refine (h.lines [] fun _ => rfl).trans ?_
    rw [List.append_nil, linesOf_of_endFree hfree hne]
    simp [LineReader.advanceAll, LineReader.advance]

/-- A reader that holds nothing at the end closes itself. -/
theorem HasSplit.close (h : r.HasSplit bytes given) (hempty : r.pending = []) :
    r.close.HasSplit bytes given where
  holds := by
    refine ⟨Nat.le_refl _, ?_, ?_, ?_⟩ <;> simp [LineReader.close]
  half hopen := by cases hopen
  lines more hmore := by
    have hlines := h.lines more fun _ => hmore rfl
    rwa [hempty] at hlines

/-! ### Calls -/

/-- The lines among the answers of calls. -/
def linesIn (answers : List (Except Text (Option Text))) : List Text :=
  (results answers).filterMap id

/-- So do the lines. -/
@[simp] theorem linesIn_append (answers more : List (Except Text (Option Text))) :
    linesIn (answers ++ more) = linesIn answers ++ linesIn more := by
  simp [linesIn]

/-- A fill changes neither the encoding nor the code page. -/
theorem encoding_fill (r : LineReader) (source : Source) :
    (r.fill source).2.encoding = r.encoding ∧ (r.fill source).2.page = r.page := by
  rcases fill_cases r source with ⟨piece, rest, -, hfill⟩ | ⟨message, rest, -, hfill⟩
  all_goals
    rw [hfill]
    exact ⟨rfl, rfl⟩

/-- A call changes neither the encoding nor the code page. -/
theorem encoding_next (r : LineReader) :
    r.next.2.encoding = r.encoding ∧ r.next.2.page = r.page := by
  fun_induction LineReader.next r with
  | case1 | case2 | case3 | case4 => exact ⟨rfl, rfl⟩
  | case5 r source hsource hend hopen message r' hfill =>
      have hsame := encoding_fill r source
      rwa [hfill] at hsame
  | case6 r source hsource hend hopen r' hfill hless ih =>
      have hsame := encoding_fill r source
      rw [hfill] at hsame
      exact ⟨ih.1.trans hsame.1, ih.2.trans hsame.2⟩

/-- **A call keeps the split**: what its reads give has been read, and the line that it gives
has been given. -/
theorem HasSplit.tracedNext (h : r.HasSplit bytes given) : ∃ more,
    r.tracedNext.2.2.HasSplit (bytes ++ (results r.tracedNext.1).flatten) (given ++ more) ∧
      linesIn [r.tracedNext.2.1] = more.map (r.encoding.decodeUnits r.page) := by
  fun_induction LineReader.tracedNext r generalizing bytes with
  | case1 r hsource => exact ⟨[], by simpa using h, rfl⟩
  | case2 r source hsource e hend =>
      exact ⟨[r.pending.take e.stop], by simpa using h.advance hend, rfl⟩
  | case3 r source hsource hend hover hempty =>
      exact ⟨[], by simpa using h.close (by simpa using hempty), rfl⟩
  | case4 r source hsource hend hover hempty =>
      refine ⟨[r.pending], by simpa using h.advanceAll hend hover (by simpa using hempty), ?_⟩
      simp [linesIn, textOf]
  | case5 r source hsource hend hopen message r' hfill =>
      have hfilled := h.fill hend (by simpa using hopen) source
      rw [hfill] at hfilled
      refine ⟨[], ?_, rfl⟩
      rwa [List.append_nil]
  | case6 r source hsource hend hopen r' hfill hless ih =>
      have hfilled := h.fill hend (by simpa using hopen) source
      have hsame := encoding_fill r source
      rw [hfill] at hfilled hsame
      obtain ⟨more, hmore, hlines⟩ := ih hfilled
      rw [hsame.1, hsame.2] at hlines
      refine ⟨more, ?_, hlines⟩
      rw [List.append_assoc, ← List.flatten_append, ← results_append,
        List.singleton_append] at hmore
      exact hmore

/-- **Behind a number of calls** what their reads gave has been read, and their lines have been
given. -/
theorem HasSplit.calls (h : r.HasSplit bytes []) (k : Nat) : ∃ given,
    (r.calls k).HasSplit (bytes ++ (results (r.reads k)).flatten) given ∧
      linesIn (r.answers k) = given.map (r.encoding.decodeUnits r.page) ∧
      (r.calls k).encoding = r.encoding ∧ (r.calls k).page = r.page := by
  induction k with
  | zero => exact ⟨[], by simpa [LineReader.calls, reads] using h, rfl, rfl, rfl⟩
  | succ k ih =>
      obtain ⟨given, hsplit, hlines, hencoding, hpage⟩ := ih
      obtain ⟨more, hmore, hline⟩ := hsplit.tracedNext
      obtain ⟨hencoding', hpage'⟩ := encoding_next (r.calls k)
      rw [tracedNext_snd] at hmore hline
      refine ⟨given ++ more, ?_, ?_, hencoding'.trans hencoding, hpage'.trans hpage⟩
      · rw [reads, results_append, List.flatten_append, ← List.append_assoc]
        exact hmore
      · rw [answers, linesIn_append, hlines, hline, hencoding, hpage, List.map_append]

/-! ### Complete lines -/

/-- While a reader is open, the complete lines of what it has read are those that it has given
and those that it holds. -/
theorem HasSplit.completeLines_read (h : r.HasSplit bytes given) (hopen : r.atEnd = false) :
    completeLines carriageReturn lineFeed (r.encoding.wholeUnits bytes).1 =
      given ++ completeLines carriageReturn lineFeed r.pending := by
  have hlast : linesOf carriageReturn lineFeed (r.pending ++ [lineFeed]) ≠ [] :=
    linesOf_ne_nil (by simp)
  rw [completeLines_eq, completeLines_eq, h.lines [lineFeed] (by simp [hopen]),
    List.dropLast_append_of_ne_nil hlast]

/-- A call that fails leaves the reader open and without a complete line. -/
theorem HasSplit.failed_next {r' : LineReader} {message : Text} (h : r.HasSplit bytes given)
    (hfail : r.next = (.error message, r')) :
    r'.atEnd = false ∧ completeLines carriageReturn lineFeed r'.pending = [] := by
  fun_induction LineReader.next r generalizing bytes with
  | case1 | case2 | case3 | case4 => cases hfail
  | case5 r source hsource hend hopen message' r'' hfill =>
      cases hfail
      have hopen' : r.atEnd = false := by simpa using hopen
      obtain ⟨rest, -, rfl⟩ := read_of_failed_fill hfill
      exact ⟨hopen', h.holds.completeLines_pending hopen' hend⟩
  | case6 r source hsource hend hopen r'' hfill hless ih =>
      have hfilled := h.fill hend (by simpa using hopen) source
      rw [hfill] at hfilled
      exact ih hfilled hfail

/-! ### What is still to come -/

/-- The bytes that are still to be read. -/
def content (r : LineReader) : Bytes :=
  match r.source with
  | none => []
  | some source => if r.atEnd then [] else source.content

/-- The messages of the failures that are still to come. -/
def messages (r : LineReader) : List Text :=
  match r.source with
  | none => []
  | some source => if r.atEnd then [] else source.messages

/-- All that is ahead of a reader whose source is not over stands in its source. -/
theorem ahead_of_open {source : Source} (hsource : r.source = some source)
    (hopen : r.atEnd = false) : r.messages = source.messages ∧ r.content = source.content := by
  simp [messages, content, hsource, hopen]

/-- At the end nothing is still to come. -/
theorem ahead_of_atEnd (hover : r.atEnd = true) : r.messages = [] ∧ r.content = [] := by
  cases hsource : r.source with
  | none => simp [messages, content, hsource]
  | some source => simp [messages, content, hsource, hover]

/-- **A read takes its failure or its bytes away, and nothing else.** -/
theorem takes_fill {source : Source} (hsource : r.source = some source) (hopen : r.atEnd = false) :
    r.messages = (r.fill source).1.toList ++ (r.fill source).2.messages ∧
      r.content =
        (results [(source.read r.makeRoom.request).1]).flatten ++ (r.fill source).2.content := by
  obtain ⟨hmessages, hcontent⟩ := ahead_of_open hsource hopen
  rw [hmessages, hcontent]
  have hanswers := source.answers_read r.request_makeRoom_pos
  rcases fill_cases r source with ⟨piece, rest, hread, hfill⟩ | ⟨message, rest, hread, hfill⟩
  · rw [hread] at hanswers ⊢
    rw [hfill]
    cases hanswers with
    | empty messages_eq content_eq =>
        rw [messages_eq, content_eq]
        simp [messages, content]
    | piece hgiven messages_eq content_eq =>
        rw [messages_eq, content_eq]
        simp [messages, content, hopen, hgiven]
  · rw [hread] at hanswers ⊢
    rw [hfill]
    cases hanswers with
    | failure messages_eq content_eq =>
        rw [messages_eq, content_eq]
        simp [messages, content, LineReader.makeRoom, hopen]

end LineReader

end RegistryText
