import RegistryText.Proofs.Lines.Progress

/-!
# Reads that fail

A read that fails makes its call fail, and a later call reads on.  **Nothing is lost by it**
(`losesNothing_withoutFailures`): the answers of the calls that succeed are those of a reader
whose source has no failures.  Every failure in front of the end is the answer of one call,
the one that made the read, and of no other; that call leaves the bytes that it held, with
those that it has read behind them, the number of lines and the source as they are; and the
lines given before it are all the complete lines of what has been read.  An interruption is
no answer at all.

The two readers are compared call by call (`HasSplit.next_withoutFailures`).  Behind a call
that fails the one reader has made room in its buffer and the other has not, but both make
the same read next, so they answer alike (`HasSplit.next_makeRoom`).
-/

namespace RegistryText

namespace Capacity

/-- A buffer that has been grown is large enough. -/
theorem grow_grow (c : Capacity) (pending : Nat) :
    (c.grow pending).grow pending = c.grow pending := by
  have hroom := c.three_le_grow_sub pending
  have hlarge : ¬(c.grow pending).units - pending < 3 := by omega
  rw [grow.eq_def (c.grow pending), if_neg hlarge]

end Capacity

namespace LineReader

variable {r r' : LineReader} {source : Source} {bytes : Bytes} {given : List (List UInt16)}

/-! ### A reader without failures -/

/-- The reader whose source has no failures. -/
def withoutFailures (r : LineReader) : LineReader :=
  { r with source := r.source.map Source.withoutFailures }

theorem source_withoutFailures (h : r.source = some source) :
    r.withoutFailures.source = some source.withoutFailures := by
  rw [withoutFailures, h, Option.map_some]

/-- A fill that succeeds is the same without the failures. -/
theorem fill_withoutFailures (h : r.fill source = (none, r')) :
    r.withoutFailures.fill source.withoutFailures = (none, r'.withoutFailures) := by
  obtain ⟨piece, rest, hread, rfl⟩ := read_of_fill h
  have hread' : source.withoutFailures.read r.withoutFailures.makeRoom.request =
      (.ok piece, rest.withoutFailures) := Source.read_withoutFailures hread
  rw [fill, hread']
  rfl

/-- Without the failures, a fill that fails has only made room. -/
theorem withoutFailures_of_failed_fill {message : Text} (hsource : r.source = some source)
    (h : r.fill source = (some message, r')) :
    r'.withoutFailures = r.withoutFailures.makeRoom := by
  obtain ⟨rest, hread, rfl⟩ := read_of_failed_fill h
  have hrest := Source.withoutFailures_of_failed_read hread
  simp only [withoutFailures, Option.map_some, hrest, hsource]
  rfl

/-- **Room that has been made already makes no difference** to a reader that is about to read. -/
theorem HasSplit.next_makeRoom (h : r.HasSplit bytes given) (hsource : r.source = some source)
    (hend : r.lineEnd? = none) (hopen : r.atEnd = false) : r.makeRoom.next = r.next := by
  have hend' : r.makeRoom.lineEnd? = none := by
    rw [(h.makeRoom hend).holds.lineEnd?_eq]
    rw [h.holds.lineEnd?_eq] at hend
    exact hend
  have hroom : r.makeRoom.makeRoom = r.makeRoom := by
    simp only [LineReader.makeRoom, Capacity.grow_grow]
  have hfill : r.makeRoom.fill source = r.fill source := by
    rw [LineReader.fill, LineReader.fill, hroom]
  rcases hresult : r.fill source with ⟨_ | message, r'⟩
  · rw [next_of_fill hsource hend hopen hresult]
    exact next_of_fill hsource hend' hopen (hfill.trans hresult)
  · rw [next_of_failed_fill hsource hend hopen hresult]
    exact next_of_failed_fill hsource hend' hopen (hfill.trans hresult)

/-- **A call that succeeds is the same without the failures, and one that fails is not
noticed.** -/
theorem HasSplit.next_withoutFailures (h : r.HasSplit bytes given) :
    (∃ message, r.next.1 = .error message ∧
      r.next.2.withoutFailures.next = r.withoutFailures.next) ∨
    ∃ line, r.next.1 = .ok line ∧
      r.withoutFailures.next = (.ok line, r.next.2.withoutFailures) := by
  fun_induction LineReader.next r generalizing bytes with
  | case1 r hsource =>
      have hclosed : r.withoutFailures.source = none := by
        simp [LineReader.withoutFailures, hsource]
      exact Or.inr ⟨none, rfl, next_of_closed hclosed⟩
  | case2 r source hsource e hend =>
      have hplain := source_withoutFailures hsource
      exact Or.inr ⟨_, rfl, next_of_lineEnd hplain hend⟩
  | case3 r source hsource hend hover hempty =>
      have hplain := source_withoutFailures hsource
      refine Or.inr ⟨none, rfl, ?_⟩
      exact (next_of_atEnd hplain hend hover).trans (if_pos hempty)
  | case4 r source hsource hend hover hempty =>
      have hplain := source_withoutFailures hsource
      refine Or.inr ⟨_, rfl, ?_⟩
      exact (next_of_atEnd hplain hend hover).trans (if_neg hempty)
  | case5 r source hsource hend hopen message r' hfill =>
      have hopen' : r.atEnd = false := by simpa using hopen
      have hplain := source_withoutFailures hsource
      have hsplit : r.withoutFailures.HasSplit bytes given := h.withSource hopen' _ _
      refine Or.inl ⟨message, rfl, ?_⟩
      rw [withoutFailures_of_failed_fill hsource hfill]
      exact hsplit.next_makeRoom hplain hend hopen'
  | case6 r source hsource hend hopen r' hfill hless ih =>
      have hopen' : r.atEnd = false := by simpa using hopen
      have hplain := source_withoutFailures hsource
      have hfilled := h.fill hend hopen' source
      rw [hfill] at hfilled
      rw [next_of_fill hplain hend hopen' (fill_withoutFailures hfill)]
      exact ih hfilled

/-- **The calls that succeed are those of the reader without failures, in this order**, and
behind them the two go on alike. -/
theorem HasSplit.calls_withoutFailures (h : r.HasSplit bytes []) (k : Nat) :
    (r.answers k).filter Except.isOk =
        r.withoutFailures.answers (results (r.answers k)).length ∧
      (r.calls k).withoutFailures.next =
        (r.withoutFailures.calls (results (r.answers k)).length).next := by
  induction k with
  | zero => exact ⟨rfl, rfl⟩
  | succ k ih =>
      obtain ⟨hanswers, hnext⟩ := ih
      obtain ⟨given, hsplit, -⟩ := h.calls k
      rcases hsplit.next_withoutFailures with ⟨message, hfail, hsame⟩ | ⟨line, hline, hplain⟩
      · -- the other reader has not moved, and still answers what this one will answer next
        simp only [answers, hfail, List.filter_append, results_append, results_error, results_nil,
          List.append_nil]
        exact ⟨by rw [hanswers]; exact List.append_nil _, hsame.trans hnext⟩
      · have hcall := hnext.symm.trans hplain
        have hlength : (results (r.answers (k + 1))).length =
            (results (r.answers k)).length + 1 := by
          simp [answers, hline]
        rw [hlength]
        refine ⟨?_, ?_⟩
        · rw [LineReader.answers, LineReader.answers, List.filter_append, hanswers, hline, hcall]
          rfl
        · rw [LineReader.calls, LineReader.calls, hcall]

/-! ### The failures that are left -/

/-- **A call takes the failure away that it answers with, and no other**; there is none left
when a call finds the end. -/
theorem messages_next (r : LineReader) :
    r.messages = messagesIn [r.next.1] ++ r.next.2.messages ∧
      (r.next.1 = .ok none → r.messages = []) := by
  fun_induction LineReader.next r with
  | case1 r hsource =>
      have hnone : r.messages = [] := by simp [LineReader.messages, hsource]
      exact ⟨rfl, fun _ => hnone⟩
  | case2 r source hsource e hend => exact ⟨rfl, by simp⟩
  | case3 r source hsource hend hover hempty =>
      have hnone := (ahead_of_atEnd hover).1
      exact ⟨hnone, fun _ => hnone⟩
  | case4 r source hsource hend hover hempty => exact ⟨rfl, by simp⟩
  | case5 r source hsource hend hopen message r' hfill =>
      obtain ⟨hmessages, -⟩ := takes_fill hsource (by simpa using hopen)
      rw [hfill] at hmessages
      exact ⟨hmessages, by simp⟩
  | case6 r source hsource hend hopen r' hfill hless ih =>
      obtain ⟨hmessages, -⟩ := takes_fill hsource (by simpa using hopen)
      rw [hfill] at hmessages
      rwa [show r.messages = r'.messages from hmessages]

theorem messages_calls (r : LineReader) (k : Nat) :
    r.messages = messagesIn (r.answers k) ++ (r.calls k).messages := by
  induction k with
  | zero => rfl
  | succ k ih =>
      rw [ih, answers, messagesIn_append, List.append_assoc, calls, ← (messages_next _).1]

/-! ### Draining -/

theorem drainOnto_of_error {answers : List (Except Text Text)} {message : Text}
    (h : r.next = (.error message, r')) :
    r.drainOnto answers = r'.drainOnto (.error message :: answers) := by
  rw [drainOnto]
  split <;> simp_all

/-- Readers that answer alike are drained alike. -/
theorem drainOnto_congr (h : r.next = r'.next) (answers : List (Except Text Text)) :
    r.drainOnto answers = r'.drainOnto answers := by
  rcases hnext : r'.next with ⟨message | _ | line, r''⟩
  · rw [drainOnto_of_error hnext, drainOnto_of_error (h.trans hnext)]
  · rw [drainOnto_of_none hnext, drainOnto_of_none (h.trans hnext)]
  · rw [drainOnto_of_line hnext, drainOnto_of_line (h.trans hnext)]

/-- **What a reader gives until it is drained** is what the reader without failures gives. -/
theorem HasSplit.drainOnto_withoutFailures (h : r.HasSplit bytes given)
    (answers : List (Except Text Text)) :
    (r.drainOnto answers).1.filter Except.isOk =
      (r.withoutFailures.drainOnto (answers.filter Except.isOk)).1 := by
  fun_induction LineReader.drainOnto answers r generalizing bytes given with
  | case1 answers r r' hnext =>
      rcases h.next_withoutFailures with ⟨message, hfail, -⟩ | ⟨line, hline, hplain⟩
      · rw [hnext] at hfail
        cases hfail
      · rw [hnext] at hline hplain
        cases hline
        rw [drainOnto_of_none hplain, List.filter_reverse]
  | case2 answers r line r' hnext hless ih =>
      obtain ⟨more, hmore, -⟩ := h.tracedNext
      rw [tracedNext_snd, hnext] at hmore
      rcases h.next_withoutFailures with ⟨message, hfail, -⟩ | ⟨line', hline, hplain⟩
      · rw [hnext] at hfail
        cases hfail
      · rw [hnext] at hline hplain
        cases hline
        rw [drainOnto_of_line hplain]
        exact ih hmore
  | case3 answers r message r' hnext hless ih =>
      obtain ⟨more, hmore, -⟩ := h.tracedNext
      rw [tracedNext_snd, hnext] at hmore
      rcases h.next_withoutFailures with ⟨message', hfail, hsame⟩ | ⟨line, hline, -⟩
      · rw [hnext] at hsame
        rw [← drainOnto_congr hsame]
        exact ih hmore
      · rw [hnext] at hline
        cases hline

/-- **A reader that is drained has answered with every failure.** -/
theorem messagesIn_drainOnto (answers : List (Except Text Text)) (r : LineReader) :
    messagesIn (r.drainOnto answers).1 = messagesIn answers.reverse ++ r.messages := by
  fun_induction LineReader.drainOnto answers r with
  | case1 answers r r' hnext =>
      have hnone := (messages_next r).2 (by rw [hnext])
      rw [hnone, List.append_nil]
  | case2 answers r line r' hnext hless ih =>
      have hmessages := (messages_next r).1
      rw [hnext] at hmessages
      rw [ih, hmessages]
      simp
  | case3 answers r message r' hnext hless ih =>
      have hmessages := (messages_next r).1
      rw [hnext] at hmessages
      rw [ih, hmessages]
      simp

/-! ### Calls that fail -/

/-- **The failures of the reads of a call are those of its answer.** -/
theorem messagesIn_tracedNext (r : LineReader) :
    messagesIn r.tracedNext.1 = messagesIn [r.tracedNext.2.1] := by
  fun_induction LineReader.tracedNext r with
  | case1 | case2 | case3 | case4 => rfl
  | case5 r source hsource hend hopen message r' hfill =>
      obtain ⟨rest, hread, rfl⟩ := read_of_failed_fill hfill
      rw [hread]
      rfl
  | case6 r source hsource hend hopen r' hfill hless ih =>
      obtain ⟨piece, rest, hread, rfl⟩ := read_of_fill hfill
      rw [hread]
      exact ih

/-- What a reader holds has `read` put behind it, and otherwise nothing has happened to it. -/
structure Keeps (r : LineReader) (read : Bytes) (r' : LineReader) : Prop where
  pending : r'.pending = (r.append read).pending
  half : r'.half = (r.append read).half
  lineNumber : r'.lineNumber = r.lineNumber
  isClosed : r'.isClosed = r.isClosed

/-- Nothing that is put behind what a reader holds changes nothing. -/
theorem HasSplit.append_nil (h : r.HasSplit bytes given) (hopen : r.atEnd = false) :
    r.append [] = r := by
  have hhalf : (r.encoding.wholeUnits r.half.toList).2 = r.half := by
    have hlone := r.encoding.half_wholeUnits_append bytes []
    rwa [List.append_nil, List.append_nil, ← h.half hopen, eq_comm] at hlone
  simp only [LineReader.append, List.append_nil, h.holds.half, hhalf]

/-- **A call that fails keeps what the reader held, and what it has read itself.** -/
theorem HasSplit.keeps_of_failed (h : r.HasSplit bytes given) {message : Text}
    (hfail : r.tracedNext.2.1 = .error message) :
    r.Keeps (results r.tracedNext.1).flatten r.tracedNext.2.2 := by
  fun_induction LineReader.tracedNext r generalizing bytes with
  | case1 | case2 | case3 | case4 => cases hfail
  | case5 r source hsource hend hopen message' r' hfill =>
      have hnothing := h.append_nil (by simpa using hopen)
      obtain ⟨rest, hread, rfl⟩ := read_of_failed_fill hfill
      rw [hread, results_error, results_nil, List.flatten_nil]
      refine ⟨?_, ?_, rfl, ?_⟩
      · rw [hnothing]
        rfl
      · rw [hnothing]
        rfl
      · rw [isClosed, isClosed, hsource]
        rfl
  | case6 r source hsource hend hopen r' hfill hless ih =>
      have hfilled := h.fill hend (by simpa using hopen) source
      rw [hfill] at hfilled
      have hkeeps := ih hfilled hfail
      obtain ⟨piece, rest, hread, rfl⟩ := read_of_fill hfill
      generalize hrest : (results (LineReader.tracedNext _).1).flatten = read at hkeeps
      have hboth := r.makeRoom.append_append piece read
      have hpending := congrArg LineReader.pending hboth
      have hhalf := congrArg LineReader.half hboth
      rw [hread]
      show r.Keeps (piece ++ (results (LineReader.tracedNext _).1).flatten) _
      rw [hrest]
      exact {
        pending := hkeeps.pending.trans hpending
        half := hkeeps.half.trans hhalf
        lineNumber := hkeeps.lineNumber
        isClosed := hkeeps.isClosed.trans (by rw [isClosed, isClosed, hsource]; rfl) }

/-! ### Nothing is lost -/

/-- What a reader gives whose source fails with `messages`, beside the reader `plain` whose
source does not fail.  Both hold the bytes `front` before their first read. -/
structure LosesNothing (r plain : LineReader) (front : Bytes) (messages : List Text) : Prop where
  /-- Calls that succeed answer like those of `plain`, and none of its answers is left out. -/
  answers : ∀ k, (r.answers k).filter Except.isOk = plain.answers (results (r.answers k)).length
  answers_all : ∀ k, plain.answers k <+: (r.answers (k + messages.length)).filter Except.isOk
  drain : r.drain.1.filter Except.isOk = plain.drain.1
  /-- Every failure is answered once, by the call that made the read. -/
  messages_answers : ∀ k, messagesIn (r.answers k) <+: messages
  messages_drain : messagesIn r.drain.1 = messages
  messages_reads : ∀ k, messagesIn (r.calls k).tracedNext.1 = messagesIn [(r.calls k).next.1]
  /-- A call that fails takes nothing of what is held. -/
  keeps : ∀ k message, (r.calls k).next.1 = .error message →
    (r.calls k).Keeps (results (r.calls k).tracedNext.1).flatten (r.calls (k + 1))
  /-- The lines that are complete in front of a failure have been given. -/
  complete : ∀ k message, (r.calls k).next.1 = .error message → linesIn (r.answers k) =
    (completeLines carriageReturn lineFeed
      (r.encoding.wholeUnits (front ++ (results (r.reads (k + 1))).flatten)).1).map
        (r.encoding.decodeUnits r.page)

theorem length_answers (r : LineReader) (k : Nat) : (r.answers k).length = k := by
  induction k with
  | zero => rfl
  | succ k ih => rw [answers, List.length_append, ih, List.length_singleton]

/-- The answers of fewer calls come first. -/
theorem answers_prefix (r : LineReader) {k j : Nat} (h : k ≤ j) : r.answers k <+: r.answers j := by
  induction h with
  | refl => exact List.prefix_rfl
  | step h ih => exact ih.trans (List.prefix_append _ _)

/-- So many calls more as there are failures give all the answers. -/
theorem HasSplit.answers_all (h : r.HasSplit bytes []) (k : Nat) :
    r.withoutFailures.answers k <+: (r.answers (k + r.messages.length)).filter Except.isOk := by
  obtain ⟨hanswers, -⟩ := h.calls_withoutFailures (k + r.messages.length)
  have hcount := length_results_add (r.answers (k + r.messages.length))
  have hmessages := congrArg List.length (r.messages_calls (k + r.messages.length))
  rw [length_answers] at hcount
  rw [List.length_append] at hmessages
  rw [hanswers]
  apply answers_prefix
  omega

/-- **What is complete in front of a failure has been given before it.** -/
theorem HasSplit.complete_of_failed (h : r.HasSplit bytes []) {k : Nat} {message : Text}
    (hfail : (r.calls k).next.1 = .error message) : linesIn (r.answers k) =
      (completeLines carriageReturn lineFeed
        (r.encoding.wholeUnits (bytes ++ (results (r.reads (k + 1))).flatten)).1).map
          (r.encoding.decodeUnits r.page) := by
  obtain ⟨_, hbefore, -⟩ := h.calls k
  obtain ⟨hopen, hnothing⟩ := hbefore.failed_next (Prod.ext hfail rfl)
  obtain ⟨given, hbehind, hlines, hencoding, -⟩ := h.calls (k + 1)
  have hcomplete := hbehind.completeLines_read hopen
  rw [hencoding, LineReader.calls, hnothing, List.append_nil] at hcomplete
  rw [hcomplete, ← hlines, LineReader.answers, linesIn_append, hfail]
  exact (List.append_nil _).symm

theorem HasSplit.losesNothing (h : r.HasSplit bytes []) :
    r.LosesNothing r.withoutFailures bytes r.messages where
  answers k := (h.calls_withoutFailures k).1
  answers_all := h.answers_all
  drain := h.drainOnto_withoutFailures []
  messages_answers k := by
    rw [r.messages_calls k]
    exact List.prefix_append _ _
  messages_drain := messagesIn_drainOnto [] r
  messages_reads k := by rw [messagesIn_tracedNext, tracedNext_snd]
  keeps k message hfail := by
    obtain ⟨given, hsplit, -⟩ := h.calls k
    have hkeeps := hsplit.keeps_of_failed (by rw [tracedNext_snd, hfail])
    rwa [tracedNext_snd] at hkeeps
  complete k message hfail := h.complete_of_failed hfail

end LineReader

/-- **Failures lose nothing.**  Whatever its source is, a line reader gives what it would give
without the failures in front of the first empty read, and each of these failures once. -/
theorem losesNothing_withoutFailures (source : Source) (seeds : List Bytes)
    (encoding : FileEncoding) (page : CodePage) (capacity : Capacity) :
    ((LineReader.ofSource source encoding page capacity).seeded seeds).LosesNothing
      ((LineReader.ofSource source.withoutFailures encoding page capacity).seeded seeds)
      seeds.flatten source.messages := by
  rw [LineReader.seeded_ofSource, LineReader.seeded_ofSource]
  have hsplit := (LineReader.hasSplit_ofSource source encoding page capacity).append rfl
    seeds.flatten
  exact hsplit.losesNothing

/-- A source that fails within the carriage return of its first line and between the two
units of the end of this line. -/
def twiceFailingSource : Source where
  segments := [.data [0x41, 0x00, 0x0D], .interruption, .failure "first".toList, .data [0x00],
    .failure "second".toList, .data [0x0A, 0x00, 0x42, 0x00]]
  chunk := none

/-- Units and an end of a line that failures cut in two. -/
theorem losesNothing_withoutFailures_cut :
    messagesIn (LineReader.ofSource twiceFailingSource .wide .utf8 (.ofNat 0)).drain.1 =
      ["first".toList, "second".toList] ∧
    (LineReader.ofSource twiceFailingSource .wide .utf8 (.ofNat 0)).drain.1.filter Except.isOk =
      [.ok "A".toList, .ok "B".toList] := by
  have hdelivers : twiceFailingSource.withoutFailures.Delivers
      [0x41, 0x00, 0x0D, 0x00, 0x0A, 0x00, 0x42, 0x00] :=
    ⟨.data (by decide) (.data (by decide) (.data (by decide) .ended)), by decide⟩
  have hlines : (linesOf carriageReturn lineFeed (FileEncoding.wide.wholeUnits
      [0x41, 0x00, 0x0D, 0x00, 0x0A, 0x00, 0x42, 0x00]).1).map
        (FileEncoding.wide.decodeUnits .utf8) = ["A".toList, "B".toList] := by
    decide
  have hplain : ∀ k, ((LineReader.ofSource twiceFailingSource.withoutFailures .wide .utf8
      (.ofNat 0)).calls k).next.1 = .ok ["A".toList, "B".toList][k]? := by
    intro k
    rw [← hlines]
    exact LineReader.next_calls_of_faces (LineReader.faces_ofSource hdelivers ..) k
  have hloses := losesNothing_withoutFailures twiceFailingSource [] .wide .utf8 (.ofNat 0)
  refine ⟨hloses.messages_drain, hloses.drain.trans ?_⟩
  exact congrArg Prod.fst (LineReader.drainOnto_of_calls hplain)

end RegistryText
