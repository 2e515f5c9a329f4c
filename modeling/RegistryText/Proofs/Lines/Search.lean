import RegistryText.Proofs.Lines.Growth

/-!
# The search for the end of a line

A reader that finds no end in what it holds reads more, and then takes its search up where it
stopped: one unit before the end of what it had, since a carriage return in the last unit is
waiting for its line feed.  It goes on so behind a read that failed, and behind bytes that were
put behind what it holds.

**A search that is taken up finds what a search from the beginning would find**
(`Searched.lineEnd_eq`).  For the units in front of it hold no end of a line (`Searched`), which
is the invariant of every step that a reader can make, and units without an end may be left out
(`LineEnd.find?_append_of_endFree`).
-/

namespace RegistryText

namespace LineReader

variable {start r r' s : LineReader} {source : Source}

/-- The units in front of the search hold no end of a line. -/
structure Searched (r : LineReader) : Prop where
  scanned_le : r.scanned ≤ r.pending.length
  endFree : EndFree carriageReturn lineFeed (r.pending.take r.scanned)

/-- **A search that is taken up finds what a search from the beginning finds.** -/
theorem Searched.lineEnd_eq (h : r.Searched) :
    r.lineEnd? = LineEnd.find? r.atEnd 0 r.pending :=
  lineEnd?_eq_of_endFree h.scanned_le h.endFree

/-- A reader that has searched nothing. -/
theorem searched_of_scanned (hscanned : r.scanned = 0) : r.Searched where
  scanned_le := hscanned ▸ Nat.zero_le _
  endFree := by simp [hscanned]

/-- Where no end has been found, the next search begins with the last unit. -/
theorem Searched.makeRoom (h : r.Searched) (hend : r.lineEnd? = none) :
    r.makeRoom.Searched where
  scanned_le := Nat.sub_le _ _
  -- The last unit may be a carriage return that waits for its line feed; no other is an end.
  endFree := by
    have hlast := endFree_dropLast h.endFree hend
    rwa [List.dropLast_eq_take] at hlast

/-- What is put behind the units leaves those in front of the search as they are. -/
theorem Searched.append (h : r.Searched) (bytes : Bytes) : (r.append bytes).Searched where
  scanned_le := by
    have hle := h.scanned_le
    simp only [LineReader.append, List.length_append]
    omega
  endFree := by
    simp only [LineReader.append]
    rw [List.take_append_of_le_length h.scanned_le]
    exact h.endFree

/-- A read, whether it fails or not, takes no unit away. -/
theorem Searched.fill (h : r.Searched) (hend : r.lineEnd? = none) (source : Source) :
    (r.fill source).2.Searched := by
  have hroom := h.makeRoom hend
  rcases fill_cases r source with ⟨piece, rest, -, hfill⟩ | ⟨message, rest, -, hfill⟩
  · have hpiece := hroom.append piece
    rw [hfill]
    exact ⟨hpiece.scanned_le, hpiece.endFree⟩
  · rw [hfill]
    exact ⟨hroom.scanned_le, hroom.endFree⟩

theorem Searched.step (h : r.Searched) (hstep : Step r r') : r'.Searched := by
  cases hstep with
  | @read source hasks => exact h.fill hasks.lineEnd_eq source
  | line | last | stop => exact searched_of_scanned rfl

/-- **Wherever a reader passes, no end stands in front of its search.** -/
theorem Passes.searched (h : Passes start s) (hstart : start.Searched) : s.Searched :=
  h.keeps (fun _ _ hstep hkept => hkept.step hstep) (fun _ bytes hkept => hkept.append bytes)
    hstart

/-- How a reader searches that begins as `start`, however it is used. -/
structure SearchesOn (start : LineReader) : Prop where
  scanned_le : ∀ {s}, Passes start s → s.scanned ≤ s.pending.length
  endFree : ∀ {s}, Passes start s →
    EndFree carriageReturn lineFeed (s.pending.take s.scanned)
  /-- The search may as well begin with the first unit. -/
  lineEnd_eq : ∀ {s}, Passes start s → s.lineEnd? = LineEnd.find? s.atEnd 0 s.pending
  /-- This holds as well of a reader that is about to read. -/
  makeRoom : ∀ {s source}, Passes start s → s.Asks source → s.makeRoom.Searched

end LineReader

/-- **Taking the search up misses no end of a line**: a line reader searches as if it always
began with the first unit that it holds, after any calls, failing reads, bytes that are put
behind what it holds, and resets. -/
theorem searchesOn_ofSource (source : Source) (encoding : FileEncoding) (page : CodePage)
    (capacity : Capacity) :
    (LineReader.ofSource source encoding page capacity).SearchesOn := by
  have hsearched : ∀ {s}, LineReader.Passes (.ofSource source encoding page capacity) s →
      s.Searched := fun hpasses => hpasses.searched (LineReader.searched_of_scanned rfl)
  exact {
    scanned_le := fun hpasses => (hsearched hpasses).scanned_le
    endFree := fun hpasses => (hsearched hpasses).endFree
    lineEnd_eq := fun hpasses => (hsearched hpasses).lineEnd_eq
    makeRoom := fun hpasses hasks => (hsearched hpasses).makeRoom hasks.lineEnd_eq }

/-- A reader whose source fails behind a carriage return. -/
def readerOfCutEnd : LineReader :=
  .ofSource ⟨[.data [0x41, 0x0D], .failure "broken".toList], none⟩ .narrow .utf8 (.ofNat 4)

/-- The line feed that is given to the reader behind the failed read ends no second line: the
search is taken up at the carriage return, and finds what a search from the beginning finds. -/
theorem searchesOn_ofSource_cutEnd :
    readerOfCutEnd.next.1.isOk = false ∧
      (readerOfCutEnd.next.2.append [0x0A]).scanned = 1 ∧
      (readerOfCutEnd.next.2.append [0x0A]).lineEnd? = some ⟨1, 3⟩ ∧
      LineEnd.find? (readerOfCutEnd.next.2.append [0x0A]).atEnd 0
        (readerOfCutEnd.next.2.append [0x0A]).pending = some ⟨1, 3⟩ := by
  have hpasses : LineReader.Passes readerOfCutEnd (readerOfCutEnd.next.2.append [0x0A]) :=
    ⟨_, 0, (Relation.ReflTransGen.single (.call _)).tail (.seed _ _), .none _⟩
  have hfound : (readerOfCutEnd.next.2.append [0x0A]).lineEnd? = some ⟨1, 3⟩ := by decide +kernel
  exact ⟨by decide +kernel, by decide +kernel, hfound,
    ((searchesOn_ofSource _ _ _ _).lineEnd_eq hpasses).symm.trans hfound⟩

end RegistryText
