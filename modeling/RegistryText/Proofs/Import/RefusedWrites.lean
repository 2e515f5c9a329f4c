import RegistryText.Proofs.Import.Body
import RegistryText.Proofs.Import.ByteDependence
import RegistryText.Proofs.Import.RefusedCalls
import RegistryText.Proofs.Import.TurnRecord

/-!
# Imports whose writes are refused

A write that is refused affects nothing else.  An import into a store that carries out all
writes is compared with one into a store that refuses the writes with chosen numbers.
`Alongside` relates the two between any two turns: they stand in front of the same lines in
the same state with the same key open, and have asked for the same.

**The second import takes the turns of the first one, but for the answers of the refused
writes and a diagnostic for each of them** (`Alongside.turns`).  What carries the proof is
that a write is the last thing that a turn does: until then both do the same
(`Unwritten`), and what is noted of a refusal stands behind all that the turn notes
(`Written`).
-/

namespace RegistryText

/-! ### What is refused -/

section Refusals

variable {κ : Type} (refuses : Nat → Bool)

/-- The diagnostics of the refused ones among `count` writes of a line; the first of these
writes has the number `k`. -/
def refusals (line k count : Nat) : List Diagnostic :=
  ((List.range' k count).filter refuses).map fun _ =>
    ⟨line, .setValueFailed RefusingStore.refusal⟩

/-- One write has at most one refusal. -/
theorem refusals_one (line k : Nat) : refusals refuses line k 1 =
    if refuses k then [⟨line, .setValueFailed RefusingStore.refusal⟩] else [] := by
  cases hrefuses : refuses k <;> simp [refusals, List.range'_succ, hrefuses]

/-- The number of writes of a turn. -/
def TurnRecord.writes (r : TurnRecord κ) : Nat :=
  r.calls.countP StoreCall.isWrite

/-- A turn in which the writes with chosen numbers are refused: the refusals are noted
under the line of the turn, behind what the turn notes otherwise. -/
def TurnRecord.refused (k : Nat) (r : TurnRecord κ) : TurnRecord κ where
  line := r.line
  calls := refusedCalls refuses k r.calls
  noted := r.noted ++ refusals refuses r.line k r.writes

/-- Turns in which the writes with chosen numbers are refused. -/
def refusedTurns : Nat → List (TurnRecord κ) → List (TurnRecord κ)
  | _, [] => []
  | k, r :: rest => r.refused refuses k :: refusedTurns (k + r.writes) rest

end Refusals

/-- The report without what tells which writes have been carried out. -/
def ImportReport.apart (report : ImportReport) : ImportReport :=
  { report with valuesWritten := 0, diagnostics := [] }

/-- Two reports that are the same apart from that. -/
theorem ImportReport.eq_of_apart {report report' : ImportReport}
    (h : report'.apart = report.apart) :
    report' = { report with
      valuesWritten := report'.valuesWritten
      diagnostics := report'.diagnostics } := by
  obtain ⟨encoding, dialect, lines, keysOpened, valuesWritten, diagnostics⟩ := report
  obtain ⟨encoding', dialect', lines', keysOpened', valuesWritten', diagnostics'⟩ := report'
  cases h
  rfl

namespace Importer

variable {ρ : Type} {refuses : Nat → Bool} {k : Nat} {before before' : List Diagnostic}
  {m n m' n' : Importer ρ RecordedMemory KeyHandle}

/-! ### Between two turns -/

/-- The second importer imports the same lines as the first one into a store that refuses the
writes with chosen numbers. -/
structure Alongside (refuses : Nat → Bool) (m n : Importer ρ RecordedMemory KeyHandle) : Prop where
  lines : n.lines = m.lines
  state : n.state = m.state
  key : n.key = m.key
  dialect : n.dialect = m.dialect
  stores : RefusesWrites refuses m.store n.store m.key
  report : n.report.apart = m.report.apart
  valuesWritten : n.report.valuesWritten + (List.range m.store.behind.writes).countP refuses =
    m.report.valuesWritten

/-- Two importers stay alongside whatever they know of their lines. -/
theorem Alongside.settled (h : Alongside refuses m n) (hm : m'.anew m'.state = m.anew m.state)
    (hn : n'.anew n'.state = n.anew n.state) : Alongside refuses m' n' := by
  obtain ⟨hlines, hstore, hkey, hstate, hdialect, hreport⟩ := anew_eq_iff.mp hm
  obtain ⟨hlines', hstore', hkey', hstate', hdialect', hreport'⟩ := anew_eq_iff.mp hn
  exact {
    lines := by rw [hlines, hlines', h.lines]
    state := by rw [hstate, hstate', h.state]
    key := by rw [hkey, hkey', h.key]
    dialect := by rw [hdialect, hdialect', h.dialect]
    stores := by rw [hstore, hstore', hkey]; exact h.stores
    report := by rw [hreport, hreport', h.report]
    valuesWritten := by rw [hreport, hreport', hstore, h.valuesWritten] }

/-- Both close the key that they hold. -/
theorem Alongside.closeKey (h : Alongside refuses m n) :
    Alongside refuses m.closeKey n.closeKey ∧ m.closeKey.key = none ∧
      m.closeKey.store.behind.writes = m.store.behind.writes ∧
      m.closeKey.report = m.report ∧ n.closeKey.report = n.report := by
  have hkey := h.key
  have hstores := h.stores
  cases hheld : m.key with
  | none =>
      rw [hheld] at hkey hstores
      simp only [Importer.closeKey, hheld, hkey]
      exact ⟨{ h with key := rfl, stores := hstores }, trivial, trivial, trivial, trivial⟩
  | some key =>
      rw [hheld] at hkey hstores
      simp only [Importer.closeKey, hheld, hkey]
      exact ⟨{ h with key := rfl, stores := hstores.closeKey }, trivial, rfl, trivial, trivial⟩

/-! ### Within a turn -/

/-- In a turn that has begun with these diagnostics, and behind `k` writes, there has been no
write yet. -/
structure Unwritten (refuses : Nat → Bool) (k : Nat) (before before' : List Diagnostic)
    (m n : Importer ρ RecordedMemory KeyHandle) : Prop extends Alongside refuses m n where
  writes : m.store.behind.writes = k
  noted : ∃ noted, m.report.diagnostics = before ++ noted ∧
    n.report.diagnostics = before' ++ noted

/-- The turn has come to its end, behind one write at most. -/
structure Written [LineSupply ρ] (refuses : Nat → Bool) (k : Nat)
    (before before' : List Diagnostic) (m n : Importer ρ RecordedMemory KeyHandle) : Prop
    extends Alongside refuses m n where
  noted : ∃ noted count, count ≤ 1 ∧ m.store.behind.writes = k + count ∧
    m.report.diagnostics = before ++ noted ∧
    n.report.diagnostics =
      before' ++ noted ++ refusals refuses (LineSupply.lineNumber m.lines) k count

/-- Where a turn begins neither has written in it. -/
theorem Alongside.unwritten (h : Alongside refuses m n) :
    Unwritten refuses m.store.behind.writes m.report.diagnostics n.report.diagnostics m n :=
  { h with writes := rfl, noted := ⟨[], by simp, by simp⟩ }

/-- What is known of a line plays no part in whether a write was made. -/
theorem Unwritten.settled (h : Unwritten refuses k before before' m n)
    (hm : m'.anew m'.state = m.anew m.state) (hn : n'.anew n'.state = n.anew n.state) :
    Unwritten refuses k before before' m' n' where
  toAlongside := h.toAlongside.settled hm hn
  writes := by rw [(anew_eq_iff.mp hm).2.1, h.writes]
  noted := by
    rw [(anew_eq_iff.mp hm).2.2.2.2.2, (anew_eq_iff.mp hn).2.2.2.2.2]
    exact h.noted

/-- Nor does the state. -/
theorem Unwritten.enter (h : Unwritten refuses k before before' m n) (state : ImportState) :
    Unwritten refuses k before before' (m.enter state) (n.enter state) :=
  { h with state := rfl }

/-- Nor does a state that is entered afresh. -/
theorem Unwritten.anew (h : Unwritten refuses k before before' m n) (state : ImportState) :
    Unwritten refuses k before before' (m.anew state) (n.anew state) :=
  (h.enter state).settled rfl rfl

/-- Both read the same header. -/
theorem Unwritten.classify (h : Unwritten refuses k before before' m n)
    (hline : n.line = m.line) :
    n.classify.1 = m.classify.1 ∧
      Unwritten refuses k before before' m.classify.2 n.classify.2 := by
  have hnamed : Unwritten refuses k before before' (m.named (Dialect.ofHeader m.line))
      (n.named (Dialect.ofHeader m.line)) :=
    { h with
      dialect := rfl
      report := congrArg
        (fun report => { report with dialect := some (Dialect.ofHeader m.line) }) h.report }
  simp only [Importer.classify, hline]
  split
  · exact ⟨rfl, hnamed.settled rfl rfl⟩
  split
  · exact ⟨rfl, (hnamed.enter .lineStart).settled rfl rfl⟩
  · exact ⟨rfl, (hnamed.enter .windows31Line).settled rfl rfl⟩

variable [LineSupply ρ]

/-- A turn may end without a write. -/
theorem Unwritten.written (h : Unwritten refuses k before before' m n) :
    Written refuses k before before' m n where
  toAlongside := h.toAlongside
  noted := by
    obtain ⟨noted, hm, hn⟩ := h.noted
    exact ⟨noted, 0, Nat.zero_le 1, h.writes, hm, by simp [hn, refusals]⟩

/-- Behind a write, too, what is known of the line plays no part. -/
theorem Written.settled (h : Written refuses k before before' m n)
    (hm : m'.anew m'.state = m.anew m.state) (hn : n'.anew n'.state = n.anew n.state) :
    Written refuses k before before' m' n' where
  toAlongside := h.toAlongside.settled hm hn
  noted := by
    rw [(anew_eq_iff.mp hm).2.1, (anew_eq_iff.mp hm).2.2.2.2.2, (anew_eq_iff.mp hn).2.2.2.2.2,
      (anew_eq_iff.mp hm).1]
    exact h.noted

/-- Both note the same problems. -/
theorem Unwritten.note (h : Unwritten refuses k before before' m n)
    (kinds : List DiagnosticKind) :
    Unwritten refuses k before before' (m.note kinds) (n.note kinds) := by
  obtain ⟨noted, hm, hn⟩ := h.noted
  refine { h with noted := ⟨noted ++ kinds.map (Diagnostic.mk (LineSupply.lineNumber m.lines)),
    ?_, ?_⟩ }
  · simp only [Importer.note, hm, List.append_assoc]
  · simp only [Importer.note, hn, h.lines, List.append_assoc]

/-- Both take the same line. -/
theorem takesAlike_unwritten : TakesAlike (fun _ => True)
    (Unwritten refuses k before before' : Importer ρ RecordedMemory KeyHandle → _ → Prop) where
  back h := h
  fetch := by
    intro m n m' answer h hfetch _
    have hlines := h.lines
    rcases hnext : LineSupply.next m.lines with ⟨message | _ | line, rest⟩ <;>
      simp only [Importer.fetch, hnext] at hfetch <;> cases hfetch <;>
      simp only [Importer.fetch, hlines, hnext]
    · exact ⟨_, rfl, { h with lines := rfl }, by rintro ⟨⟩⟩
    · exact ⟨_, rfl, { h with lines := rfl }, by rintro ⟨⟩⟩
    · refine ⟨_, rfl, { h with lines := rfl, report := ?_ }, fun _ => rfl⟩
      exact congrArg (fun report => { report with lines := LineSupply.lineNumber rest }) h.report

/-- Both open a key, or both are refused it. -/
theorem Unwritten.openKey (h : Unwritten refuses k before before' m n) (path : Text) :
    Unwritten refuses k before before' (m.openKey path).2 (n.openKey path).2 := by
  obtain ⟨hclosed, hfree, hwrites, hreport, hreport'⟩ := h.toAlongside.closeKey
  have hunwritten : Unwritten refuses k before before' m.closeKey n.closeKey :=
    { hclosed with
      writes := hwrites.trans h.writes
      noted := by rw [hreport, hreport']; exact h.noted }
  have hstores := hclosed.stores
  rw [hfree] at hstores
  cases hsplit : RootKey.split? path with
  | none =>
      have hrequest : ∀ store : RecordedMemory,
          requestKey (κ := KeyHandle) store path = (.error (.unknownRootKey path), store) :=
        fun _ => requestKey_of_no_root hsplit
      simp only [Importer.openKey, hrequest]
      exact hunwritten.note _
  | some split =>
      obtain ⟨root, below⟩ := split
      obtain ⟨answer, opened, opened', hopen, hopen', hopened, hsame⟩ :=
        hstores.openKey root below
      have hrequest : ∀ store : RecordedMemory, requestKey (κ := KeyHandle) store path =
          RegistryStore.openKey store root below := fun _ => requestKey_of_root hsplit
      simp only [Importer.openKey, hrequest, hopen, hopen']
      cases answer with
      | error cause =>
          have hasked : Unwritten refuses k before before'
              { m.closeKey with store := opened } { n.closeKey with store := opened' } :=
            { hunwritten with
              stores := by rw [hfree]; exact hopened
              writes := hsame.trans hunwritten.writes
              valuesWritten := by rw [hsame]; exact hunwritten.valuesWritten }
          exact hasked.note _
      | ok key =>
          exact { hunwritten with
            key := rfl
            stores := hopened
            report := congrArg
              (fun report => { report with keysOpened := report.keysOpened + 1 })
              hunwritten.report
            writes := hsame.trans hunwritten.writes
            valuesWritten := by
              show _ + (List.range opened.behind.writes).countP refuses = _
              rw [hsame]
              exact hunwritten.valuesWritten }

/-- A value is set in both stores, or its refusal is noted by the second importer. -/
theorem Unwritten.write (h : Unwritten refuses k before before' m n) (w : KeyWrite) :
    Written refuses k before before' (m.write w) (n.write w) := by
  have hkey := h.key
  have hstores := h.stores
  have hvalues := h.valuesWritten
  obtain ⟨noted, hm, hn⟩ := h.noted
  cases hheld : m.key with
  | none =>
      rw [hheld] at hkey
      simp only [Importer.write, hheld, hkey]
      exact h.written
  | some key =>
      rw [hheld] at hkey hstores
      obtain ⟨written, written', hset, hset', hafter, hcount⟩ :=
        hstores.setValue w.name w.type w.data
      have hnext : (List.range written.behind.writes).countP refuses =
          (List.range m.store.behind.writes).countP refuses + if refuses k then 1 else 0 := by
        rw [hcount, List.range_succ, List.countP_append, List.countP_singleton, h.writes]
      rw [h.writes] at hset' hcount
      cases hrefuses : refuses k with
      | true =>
          rw [hrefuses, if_pos rfl] at hset' hnext
          simp only [Importer.write, hheld, hkey, hset, hset']
          exact { h with
            key := rfl
            stores := hafter
            valuesWritten := by
              show n.report.valuesWritten + (List.range written.behind.writes).countP refuses =
                m.report.valuesWritten + 1
              omega
            noted := by
              refine ⟨noted, 1, Nat.le_refl 1, hcount, hm, ?_⟩
              simp only [refusals_one, hrefuses, Importer.note, hn, h.lines]
              rfl }
      | false =>
          rw [hrefuses, if_neg (by simp)] at hset' hnext
          simp only [Importer.write, hheld, hkey, hset, hset']
          exact { h with
            key := rfl
            stores := hafter
            valuesWritten := by
              show n.report.valuesWritten + 1 + (List.range written.behind.writes).countP refuses =
                m.report.valuesWritten + 1
              omega
            noted := by
              refine ⟨noted, 1, Nat.le_refl 1, hcount, hm, ?_⟩
              simp [refusals_one, hrefuses, hn] }

/-! ### Turns -/

/-- Both carry the statement of a line out.  A write is the last thing that is done for it. -/
theorem Unwritten.carryOut (h : Unwritten refuses k before before' m n) (statement : Statement) :
    (n.carryOut statement).1 = (m.carryOut statement).1 ∧
      Written refuses k before before' (m.carryOut statement).2 (n.carryOut statement).2 := by
  cases statement with
  | nothing => exact ⟨rfl, h.written⟩
  | key path => exact ⟨rfl, (h.openKey path).written⟩
  | entry path w => exact ⟨rfl, (h.openKey path).write w⟩
  | value w => exact ⟨rfl, h.write w⟩
  | fault kind => exact ⟨rfl, (h.note [kind]).written⟩
  | list name type bytes =>
      obtain ⟨hend, hgathered⟩ := takesAlike_unwritten.gather h bytes trivial
      simp only [Importer.carryOut]
      revert hend hgathered
      rcases m.gather bytes with ⟨ending, m'⟩
      rcases n.gather bytes with ⟨ending', n'⟩
      rintro rfl hgathered
      cases ending' with
      | complete bytes => exact ⟨rfl, hgathered.write _⟩
      | malformed | missing => exact ⟨rfl, (hgathered.note _).written⟩
      | failed e => exact ⟨rfl, (hgathered.enter .hexPayload).written⟩

/-- Both take the header and read it. -/
theorem Unwritten.headerStep (h : Unwritten refuses k before before' m n) :
    n.headerStep.1 = m.headerStep.1 ∧
      Unwritten refuses k before before' m.headerStep.2 n.headerStep.2 := by
  rcases hfetch : m.fetch with ⟨e | _ | _, m'⟩ <;>
    obtain ⟨n', hfetch', hfetched, hline⟩ := takesAlike_unwritten.fetch h hfetch trivial <;>
    simp only [Importer.headerStep, hfetch, hfetch']
  · exact ⟨trivial, hfetched⟩
  · have hempty : Unwritten refuses k before before' { m' with line := [] }
        { n' with line := [] } := hfetched.settled rfl rfl
    exact hempty.classify rfl
  · exact hfetched.classify (hline rfl)

/-- **Both take the same turn**, and note the same but for a refusal at its end. -/
theorem Alongside.turn (h : Alongside refuses m n) (hm : m.Between) (place place' : Nat) :
    (n.turn place').1.unplaced = (m.turn place).1.unplaced ∧
      Written refuses m.store.behind.writes m.report.diagnostics n.report.diagnostics
        (m.turn place).2 (n.turn place').2 := by
  have hfirst := h.unwritten
  rcases hm with hheader | hfront
  · rw [turn_header hheader, turn_header (h.state.trans hheader)]
    obtain ⟨hprogress, hread⟩ := hfirst.headerStep
    exact ⟨congrArg Progress.unplaced hprogress, hread.written⟩
  have hsame : n.front = m.front := front_congr h.dialect
  have hfront' : n.state = n.front := by rw [h.state, hsame, hfront]
  rcases hfetch : m.fetch with ⟨e | _ | _, m'⟩ <;>
    obtain ⟨n', hfetch', hfetched, hline⟩ := takesAlike_unwritten.fetch hfirst hfetch trivial
  · rw [turn_of_error hfront hfetch, turn_of_error hfront' hfetch']
    exact ⟨rfl, hfetched.written⟩
  · rw [turn_of_end hfront hfetch, turn_of_end hfront' hfetch']
    exact ⟨rfl, hfetched.written⟩
  · have hturn := turn_of_line hfront hfetch place
    have hturn' := turn_of_line hfront' hfetch' place'
    rw [hsame, hline rfl] at hturn'
    obtain ⟨hprogress, hdone⟩ := ((hfetched.anew m.front).note
      ((Reading.ofBody m.front m'.line).unknown.map .unknownEscape)).carryOut
        (Reading.ofBody m.front m'.line).statement
    exact ⟨(congrArg Prod.fst hturn').trans ((congrArg Progress.unplaced hprogress).trans
      (congrArg Prod.fst hturn).symm),
        hdone.settled (congrArg Prod.snd hturn) (congrArg Prod.snd hturn')⟩

/-- The record of the second turn is that of the first one, with the refusals. -/
theorem Alongside.record (h : Alongside refuses m n) (hm : m.Between) (place place' : Nat) :
    n.record (n.turn place').2 =
        (m.record (m.turn place).2).refused refuses m.store.behind.writes ∧
      (m.turn place).2.store.behind.writes =
        m.store.behind.writes + (m.record (m.turn place).2).writes ∧
      (m.record (m.turn place).2).writes ≤ 1 := by
  obtain ⟨hafter, noted, count, hone, hcount, hnoted, hnoted'⟩ := (h.turn hm place place').2
  have hcalls := m.calls_record place
  have hwrites : (m.turn place).2.store.behind.writes =
      m.store.behind.writes + (m.record (m.turn place).2).writes := by
    rw [hafter.stores.writes, hcalls, List.countP_append, ← h.stores.writes]
    rfl
  have hsame : (m.record (m.turn place).2).writes = count := by omega
  have hrefused : (n.turn place').2.store.calls = n.store.calls ++
      refusedCalls refuses m.store.behind.writes (m.record (m.turn place).2).calls := by
    rw [hafter.stores.calls, hcalls, refusedCalls_append, ← h.stores.calls, Nat.zero_add,
      ← h.stores.writes]
  refine ⟨?_, hwrites, hsame ▸ hone⟩
  rw [TurnRecord.refused, hsame]
  simp only [Importer.record, hrefused, hnoted', hnoted, hafter.lines, List.append_assoc,
    List.drop_left]

/-- **The turns of the second loop are those of the first one, with the refusals.** -/
theorem Alongside.turns (h : Alongside refuses m n) (hm : m.Between) (place place' : Nat) :
    (n.loop place').1 = (m.loop place).1 ∧
      Alongside refuses (m.loop place).2 (n.loop place').2 ∧
      n.turns place' = refusedTurns refuses m.store.behind.writes (m.turns place) ∧
      ∀ r ∈ m.turns place, r.writes ≤ 1 := by
  induction hremaining : m.remaining using Nat.strongRecOn generalizing m n place place' with
  | ind remaining ih =>
      obtain ⟨hprogress, hafter⟩ := h.turn hm place place'
      obtain ⟨hrecord, hwrites, hone⟩ := h.record hm place place'
      rcases hturn : m.turn place with ⟨next | _ | e, m'⟩ <;>
        rcases hturn' : n.turn place' with ⟨next' | _ | e', n'⟩ <;>
        rw [hturn, hturn'] at hprogress hafter hrecord <;> cases hprogress <;>
        rw [hturn] at hwrites hone
      · obtain ⟨hended, hlast, hturns, hones⟩ := ih m'.remaining
          (hremaining ▸ (rank_turn hturn).2) hafter.toAlongside (Or.inr (front_turn hm hturn))
          next next' rfl
        rw [loop_of_turn hturn, loop_of_turn hturn', turns_of_turn hturn, turns_of_turn hturn',
          refusedTurns, ← hwrites, hrecord, hturns]
        exact ⟨hended, hlast, rfl, List.forall_mem_cons.mpr ⟨hone, hones⟩⟩
      · rw [loop_of_last_turn hturn, loop_of_last_turn hturn', turns_of_last_turn hturn,
          turns_of_last_turn hturn', hrecord]
        exact ⟨rfl, hafter.toAlongside, rfl, List.forall_mem_singleton.mpr hone⟩
      · rw [loop_of_failed_turn hturn, loop_of_failed_turn hturn', turns_of_failed_turn hturn,
          turns_of_failed_turn hturn', hrecord]
        exact ⟨rfl, hafter.toAlongside, rfl, List.forall_mem_singleton.mpr hone⟩

/-! ### Runs -/

/-- Two importers alongside end their runs so. -/
theorem Alongside.finish (h : Alongside refuses m n) :
    Alongside refuses m.finish n.finish := by
  have hclosed := h.closeKey.1
  exact { hclosed with lines := congrArg LineSupply.close hclosed.lines }

/-- **Both runs have the same outcome.** -/
theorem Alongside.run (h : Alongside refuses m n) (hm : m.Between) :
    n.run.1 = m.run.1 ∧ Alongside refuses m.run.2 n.run.2 := by
  obtain ⟨hended, hlast, -⟩ := h.turns hm 0 0
  have hfinished := hlast.finish
  rw [run_snd, run_snd]
  refine ⟨?_, hfinished⟩
  simp only [Importer.run, hended]
  cases (m.loop 0).1 with
  | error e => rfl
  | ok ended => exact congrArg outcome hfinished.dialect

end Importer

/-- What can be seen of an import does not depend on whether its calls are recorded. -/
theorem importView_of_recorded {σ κ : Type} [RegistryStore σ κ] {source : Source}
    {store : RecordingStore σ κ} {options : ImportOptions}
    {m : Importer LineReader (RecordingStore σ κ) κ}
    (hm : Importer.ofSource source store options = .ok m) :
    importView source store.behind options = .ok {
      outcome := m.run.1
      state := m.run.2.state
      dialect := m.run.2.dialect
      report := m.run.2.report
      store := m.run.2.store.behind } := by
  have hmap := Importer.ofSource_mapStore (κ := κ) RecordingStore.behind source store options
  rw [hm] at hmap
  rw [importView, hmap]
  exact congrArg (fun ran => Except.ok (Importer.view ran))
    (Importer.run_mapStore RecordingStore.morphism_behind m)

/-- An empty store in memory in which paths are denied, behind one that refuses writes, with
no call recorded yet. -/
def recordedMemory (denied : List Text) (refuses : Nat → Bool) : RecordedMemory :=
  ⟨⟨denied.foldl MemoryStore.deny {}, refuses, 0⟩, []⟩

/-- Why there is no importer does not depend on the store. -/
theorem importView_of_error {σ τ κ : Type} [RegistryStore τ κ] {source : Source} {store : σ}
    {options : ImportOptions} {e : ImportError}
    (h : Importer.ofSource (κ := κ) source store options = .error e) (store' : τ) :
    importView source store' options = .error e := by
  have hmap := Importer.ofSource_mapStore (κ := κ) (fun _ : σ => store') source store options
  rw [h] at hmap
  rw [importView, hmap]
  rfl

namespace Importer

variable {source : Source} {denied : List Text} {refuses : Nat → Bool} {options : ImportOptions}
  {m : Importer LineReader RecordedMemory KeyHandle}

/-- Two new importers of one source, of which the second one has a store that refuses writes. -/
theorem exists_alongside
    (hm : ofSource source (recordedMemory denied fun _ => false) options = .ok m)
    (refuses : Nat → Bool) :
    ∃ n, ofSource source (recordedMemory denied refuses) options = .ok n ∧
      Alongside refuses m n ∧ m.report.diagnostics = [] ∧ n.report.diagnostics = [] ∧
      m.state = .header := by
  have hmap := ofSource_mapStore (κ := KeyHandle)
    (fun _ : RecordedMemory => recordedMemory denied refuses) source
    (recordedMemory denied fun _ => false) options
  rw [hm] at hmap
  obtain ⟨first, second, rest, rfl⟩ := exists_ofFirstBytes hm
  refine ⟨_, hmap, ⟨rfl, rfl, rfl, rfl, ?_, rfl, rfl⟩, rfl, rfl, rfl⟩
  exact ⟨MemoryStore.parallel_deny denied, rfl, rfl, rfl, rfl, rfl, nofun⟩

/-- The log of a run is that of its calls. -/
theorem log_run_recorded (hm : ofSource source (recordedMemory denied refuses) options = .ok m) :
    m.run.2.store.behind.behind.log = m.run.2.store.calls.filterMap StoreCall.logged? := by
  obtain ⟨hstore, hkey⟩ := fresh_ofSource hm
  have hfresh : Followed m.store m.key := by
    rw [hstore, hkey]
    exact ⟨MemoryStore.follows_deny denied, nofun⟩
  exact (run_keeps keptByCalls_followed hfresh).1.follows.log

end Importer

/-- **A write that is refused affects nothing else.**  Whatever a source delivers and whatever
is denied, its import into a store that refuses the writes with chosen numbers ends as the one
into a store that carries out all writes.  Both ask for the same; the log is the other log
without the refused writes, and the diagnostics are those of the other import with one for each
refused write, at the end of the turn of this write. -/
theorem log_of_refused (source : Source) (denied : List Text) (refuses : Nat → Bool)
    (options : ImportOptions) :
    (∃ e, importView source (recordedMemory denied fun _ => false).behind options = .error e ∧
      importView source (recordedMemory denied refuses).behind options = .error e) ∨
    ∃ view view' : ImportView (RefusingStore MemoryStore),
      importView source (recordedMemory denied fun _ => false).behind options = .ok view ∧
      importView source (recordedMemory denied refuses).behind options = .ok view' ∧
      view'.outcome = view.outcome ∧ view'.state = view.state ∧
      view'.store.behind.log = keptOps refuses 0 view.store.behind.log ∧
      view'.report = { view.report with
        valuesWritten := view'.report.valuesWritten
        diagnostics := view'.report.diagnostics } ∧
      view'.report.valuesWritten + (List.range view.store.writes).countP refuses =
        view.report.valuesWritten ∧
      ∃ m n : Importer LineReader RecordedMemory KeyHandle,
        Importer.ofSource source (recordedMemory denied fun _ => false) options = .ok m ∧
        Importer.ofSource source (recordedMemory denied refuses) options = .ok n ∧
        m.run.2.store.behind = view.store ∧ n.run.2.store.behind = view'.store ∧
        (∀ call ∈ m.run.2.store.calls, call.isFailedWrite = false) ∧
        n.run.2.store.calls = refusedCalls refuses 0 m.run.2.store.calls ∧
        n.run.2.store.calls.filterMap StoreCall.write? =
          m.run.2.store.calls.filterMap StoreCall.write? ∧
        view.store.writes = m.run.2.store.calls.countP StoreCall.isWrite ∧
        n.turns 0 = refusedTurns refuses 0 (m.turns 0) ∧
        (∀ r ∈ m.turns 0, r.writes ≤ 1) ∧
        view.report.diagnostics = (m.turns 0).flatMap (fun r => r.noted) ∧
        view'.report.diagnostics =
          (refusedTurns refuses 0 (m.turns 0)).flatMap fun r => r.noted := by
  cases hm : Importer.ofSource (κ := KeyHandle) source (recordedMemory denied fun _ => false)
      options with
  | error e => exact Or.inl ⟨e, importView_of_error hm _, importView_of_error hm _⟩
  | ok m =>
      obtain ⟨n, hn, halongside, hnew, hnew', hheader⟩ := Importer.exists_alongside hm refuses
      have hnoted := m.diagnostics_loop LineReader.counts (Or.inl hheader) 0
      have hnoted' := n.diagnostics_loop LineReader.counts
        (Or.inl (halongside.state.trans hheader)) 0
      obtain ⟨-, -, hturns, hones⟩ := halongside.turns (Or.inl hheader) 0 0
      obtain ⟨houtcome, hran⟩ := halongside.run (Or.inl hheader)
      have hempty : m.store.behind.writes = 0 := by rw [(Importer.fresh_ofSource hm).1]; rfl
      rw [hempty] at hturns
      refine Or.inr ⟨_, _, importView_of_recorded hm, importView_of_recorded hn, houtcome,
        hran.state, ?_, ?_, hran.valuesWritten, m, n, rfl, hn, rfl, rfl, hran.stores.successful,
        hran.stores.calls, ?_, hran.stores.writes, hturns, hones, ?_, ?_⟩
      · show n.run.2.store.behind.behind.log = keptOps refuses 0 m.run.2.store.behind.behind.log
        rw [Importer.log_run_recorded hm, Importer.log_run_recorded hn, hran.stores.calls,
          logged_refusedCalls refuses 0 hran.stores.successful]
      · exact ImportReport.eq_of_apart hran.report
      · rw [hran.stores.calls, filterMap_write?_refusedCalls]
      · show m.run.2.report.diagnostics = _
        rw [Importer.report_run, hnoted, hnew, List.nil_append]
      · show n.run.2.report.diagnostics = _
        rw [Importer.report_run, hnoted', hnew', List.nil_append, hturns]

end RegistryText
