import Mathlib.Data.List.Forall2
import RegistryText.Proofs.Import.Body
import RegistryText.Proofs.Import.ByteDependence
import RegistryText.Proofs.Import.Lockstep

/-!
# Lines that read alike

A structured file looks at a line in three ways: it reads a statement from it, and within a
list of bytes it asks whether the line is a comment and reads bytes from it.  Two lines that
answer all three alike are `SameReading`s of each other.

**Files whose lines read alike, one by one, are imported alike** (`run_of_sameReading`): the
outcome, the store and the report are the same, up to the encoding that the report names.  The
two importers are recasts of each other in front of every line (`Retells`), and they take their
turns together.
-/

namespace RegistryText

/-- A structured file does not tell the lines apart. -/
structure SameReading (line line' : Text) : Prop where
  reading : Reading.ofLine line' = Reading.ofLine line
  comment : line'.skipBlanks.startsWith [';'] = line.skipBlanks.startsWith [';']
  bytes : HexList.readLine line'.skipBlanks = HexList.readLine line.skipBlanks

namespace Importer

variable {ρ ρ' σ κ : Type}

/-- The second importer has other lines, its report may name another encoding, and all else is
the same up to what is left of a line. -/
structure Retells (L : ρ → ρ' → Prop) (m : Importer ρ σ κ) (n : Importer ρ' σ κ) : Prop where
  lines : L m.lines n.lines
  same : n.anew n.state =
    (m.anew m.state).recast (fun store => store) n.lines n.report.encoding

section Retells

variable {L : ρ → ρ' → Prop} {m : Importer ρ σ κ} {n : Importer ρ' σ κ}

/-- A recast importer retells, whatever it knows of its line. -/
theorem retells_of_recast {lines : ρ'} (encoding : FileEncoding) (hlines : L m.lines lines)
    (h : n.anew n.state = (m.anew m.state).recast (fun store => store) lines encoding) :
    Retells L m n := by
  have hlines' : n.lines = lines := congrArg Importer.lines h
  have hencoding : n.report.encoding = encoding :=
    congrArg (fun n => n.report.encoding) h
  exact ⟨hlines' ▸ hlines, by rw [h, hlines', hencoding]⟩

/-- Retelling, an importer is in the same state. -/
theorem Retells.state (h : Retells L m n) : n.state = m.state :=
  congrArg Importer.state h.same

/-- It has the same store. -/
theorem Retells.store (h : Retells L m n) : n.store = m.store :=
  congrArg Importer.store h.same

/-- Its report has the same but for the encoding. -/
theorem Retells.report (h : Retells L m n) :
    n.report = { m.report with encoding := n.report.encoding } :=
  congrArg Importer.report h.same

/-- It goes on to the same states. -/
theorem Retells.enter (h : Retells L m n) (state : ImportState) :
    Retells L (m.enter state) (n.enter state) :=
  ⟨h.lines, congrArg (fun n => n.enter state) h.same⟩

/-- It is told the same dialect. -/
theorem Retells.named (h : Retells L m n) (d : Dialect) : Retells L (m.named d) (n.named d) :=
  ⟨h.lines, congrArg (fun n => n.named d) h.same⟩

/-- It closes the same key. -/
theorem Retells.closeKey [RegistryStore σ κ] (h : Retells L m n) :
    Retells L m.closeKey n.closeKey := by
  have hclosed : ∀ {ρ : Type} (m : Importer ρ σ κ),
      m.closeKey.anew m.closeKey.state = (m.anew m.state).closeKey := by
    intro ρ m
    cases hkey : m.key <;> simp [Importer.closeKey, anew, hkey]
  have hlines : m.closeKey.lines = m.lines := lines_closeKey m
  refine retells_of_recast n.report.encoding (hlines ▸ h.lines) ?_
  rw [hclosed, hclosed, h.same, closeKey_recast RegistryStore.morphism_id]

variable [LineSupply ρ] [LineSupply ρ'] [RegistryStore σ κ]

/-- It ends its run alike. -/
theorem Retells.finish (hclose : ∀ {lines lines'}, L lines lines' →
      L (LineSupply.close lines) (LineSupply.close lines')) (h : Retells L m n) :
    Retells L m.finish n.finish := by
  have hclosed := h.closeKey
  refine retells_of_recast n.closeKey.report.encoding (hclose hclosed.lines) ?_
  have hlined := congrArg
    (fun k => { k with lines := LineSupply.close n.closeKey.lines }) hclosed.same
  exact hlined

/-- A write notes no more than the number of its line, so it may be recast before or after. -/
theorem write_recast {lines : ρ'} {encoding : FileEncoding}
    (hnumber : LineSupply.lineNumber m.lines = LineSupply.lineNumber lines) (w : KeyWrite) :
    (m.recast (fun store => store) lines encoding).write w =
      (m.write w).recast (fun store => store) lines encoding := by
  cases hkey : m.key with
  | none => simp [write, hkey]
  | some key =>
      rcases hset : RegistryStore.setValue m.store key w.name w.type w.data with ⟨answer, store⟩
      cases answer <;> simp [write, note, recast, hkey, hset, hnumber]

/-- Supplies that count alike keep the importers alike. -/
theorem companions_retells
    (hL : ∀ {lines lines'}, L lines lines' →
      LineSupply.lineNumber lines = LineSupply.lineNumber lines') :
    Companions (Retells L : Importer ρ σ κ → Importer ρ' σ κ → Prop) where
  state h := h.state
  dialect h := congrArg Importer.dialect h.same
  enter state h := h.enter state
  settled {m m' n n'} h hm hn := by
    have hlines : m'.lines = m.lines := (anew_eq_iff.mp hm).1
    refine retells_of_recast n.report.encoding (hlines ▸ h.lines) ?_
    rw [hn, hm, h.same]
  named d h := h.named d
  note {m n kinds} h _ := by
    refine retells_of_recast (m := m.note kinds) n.report.encoding h.lines ?_
    have hnoted := congrArg (fun n => n.note kinds) h.same
    exact hnoted.trans (note_recast (m := m.anew m.state) (hL h.lines) kinds)
  openKey {m n} path h := by
    have hlines : (m.openKey path).2.lines = m.lines := lines_openKey m path
    refine retells_of_recast n.report.encoding (hlines ▸ h.lines) ?_
    rw [anew_openKey, anew_openKey, state_openKey, state_openKey, h.same,
      openKey_recast (m := m.anew m.state) RegistryStore.morphism_id (hL h.lines)]
  write {m n} w h := by
    have hlines : (m.write w).lines = m.lines := lines_write m w
    refine retells_of_recast n.report.encoding (hlines ▸ h.lines) ?_
    rw [anew_write, anew_write, state_write, state_write, h.same,
      write_recast (m := m.anew m.state) (hL h.lines)]

end Retells

/-! ### Lists of lines that read alike -/

/-- The lines read alike, one by one, and as many have been given. -/
def LinesAlike (lines lines' : ListedLines) : Prop :=
  lines.given = lines'.given ∧ List.Forall₂ SameReading lines.left lines'.left

variable {m n : Importer ListedLines σ κ}

/-- What the two importers take next. -/
theorem Retells.fetch (h : Retells LinesAlike m n) :
    (m.fetch = (.ok false, m) ∧ n.fetch = (.ok false, n)) ∨
      ∃ m' n', m.fetch = (.ok true, m') ∧ n.fetch = (.ok true, n') ∧ Retells LinesAlike m' n' ∧
        SameReading m'.line n'.line := by
  obtain ⟨hgiven, hleft⟩ := h.lines
  rcases hm : m.lines with ⟨left, given⟩
  rcases hn : n.lines with ⟨left', given'⟩
  rw [hm, hn] at hgiven hleft
  obtain rfl : given = given' := hgiven
  cases hleft with
  | nil =>
      have hnext : LineSupply.next m.lines = (.ok none, m.lines) := by rw [hm]; rfl
      have hnext' : LineSupply.next n.lines = (.ok none, n.lines) := by rw [hn]; rfl
      refine Or.inl ⟨?_, ?_⟩
      · simp only [Importer.fetch, hnext]
      · simp only [Importer.fetch, hnext']
  | @cons line line' left left' hline hrest =>
      have hlines : LinesAlike ⟨left, given + 1⟩ ⟨left', given + 1⟩ := ⟨rfl, hrest⟩
      refine Or.inr ⟨_, _, by rw [Importer.fetch, hm]; rfl, by rw [Importer.fetch, hn]; rfl, ?_,
        hline⟩
      refine retells_of_recast n.report.encoding hlines ?_
      have hsame := congrArg (fun k => { k with
        lines := (⟨left', given + 1⟩ : ListedLines)
        report := { k.report with lines := given + 1 } }) h.same
      exact hsame

/-- The lines that continue a list of bytes are passed over, read, or refused by both. -/
theorem Retells.gather (h : Retells LinesAlike m n) (bytes : Bytes) :
    (n.gather bytes).1 = (m.gather bytes).1 ∧
      Retells LinesAlike (m.gather bytes).2 (n.gather bytes).2 := by
  induction hleft : m.lines.left.length using Nat.strongRecOn generalizing m n bytes with
  | ind left ih =>
      rcases h.fetch with ⟨hm, hn⟩ | ⟨m', n', hm, hn, hrelated, hline⟩
      · rw [gather_of_end hm, gather_of_end hn]
        exact ⟨rfl, h⟩
      have hless : m'.lines.left.length < left := hleft ▸ (size_fetch hm).1
      cases hcomment : m'.line.skipBlanks.startsWith [';'] with
      | true =>
          rw [gather_of_comment hm hcomment, gather_of_comment hn (hline.comment.trans hcomment)]
          exact ih _ hless hrelated bytes rfl
      | false =>
          rw [gather_of_line hm hcomment, gather_of_line hn (hline.comment.trans hcomment),
            hline.bytes]
          rcases HexList.readLine m'.line.skipBlanks with ⟨_ | _ | _, more⟩
          · exact ⟨rfl, hrelated⟩
          · exact ⟨rfl, hrelated⟩
          · exact ih _ hless hrelated (bytes ++ more) rfl

variable [RegistryStore σ κ]

/-- Lines that read alike are counted alike. -/
theorem companions_linesAlike :
    Companions
      (Retells LinesAlike : Importer ListedLines σ κ → Importer ListedLines σ κ → Prop) :=
  companions_retells fun hlines => hlines.1

/-- Both do what a line states that they have taken. -/
theorem Retells.obey (h : Retells LinesAlike m n) {r : Reading} (hplain : r.IsPlain) :
    (n.obey r).1 = (m.obey r).1 ∧ Retells LinesAlike (m.obey r).2 (n.obey r).2 := by
  have hnoted := companions_linesAlike.noteUnknown h r.unknown
  exact companions_linesAlike.carryOut hnoted hplain fun name type bytes _ => hnoted.gather bytes

/-- **Both take their turns together** in a structured file. -/
theorem Retells.turn (h : Retells LinesAlike m n) (hfront : m.state = m.front)
    (hstructured : m.front = .lineStart) (place place' : Nat) :
    (n.turn place').1.unplaced = (m.turn place).1.unplaced ∧
      Retells LinesAlike (m.turn place).2 (n.turn place').2 := by
  have hsame : n.front = m.front := companions_linesAlike.front h
  have hfront' : n.state = n.front := h.state.trans (hfront.trans hsame.symm)
  rcases h.fetch with ⟨hm, hn⟩ | ⟨m', n', hm, hn, hrelated, hline⟩
  · rw [turn_of_end hfront hm, turn_of_end hfront' hn]
    exact ⟨rfl, h⟩
  have hturn := turn_of_line hfront hm place
  have hturn' := turn_of_line hfront' hn place'
  have hread : Reading.ofBody .lineStart n'.line = Reading.ofBody .lineStart m'.line :=
    hline.reading
  rw [hstructured] at hturn
  rw [hsame, hstructured, hread] at hturn'
  obtain ⟨hprogress, hobeyed⟩ := (companions_linesAlike.anew .lineStart hrelated).obey
    (Reading.isPlain_ofBody .lineStart m'.line)
  refine ⟨?_, companions_linesAlike.settled hobeyed (congrArg Prod.snd hturn)
    (congrArg Prod.snd hturn')⟩
  calc (n.turn place').1.unplaced
      = ((n'.anew .lineStart).obey (.ofBody .lineStart m'.line)).1.unplaced :=
        congrArg Prod.fst hturn'
    _ = ((m'.anew .lineStart).obey (.ofBody .lineStart m'.line)).1.unplaced := by rw [hprogress]
    _ = (m.turn place).1.unplaced := (congrArg Prod.fst hturn).symm

/-- The loops of both end alike, by induction on the steps that are left. -/
theorem Retells.loop (h : Retells LinesAlike m n) (hfront : m.state = m.front)
    (hstructured : m.front = .lineStart) (place place' : Nat) :
    (n.loop place').1 = (m.loop place).1 ∧
      Retells LinesAlike (m.loop place).2 (n.loop place').2 := by
  induction hremaining : m.remaining using Nat.strongRecOn generalizing m n place place' with
  | ind remaining ih =>
      obtain ⟨hprogress, hrelated⟩ := h.turn hfront hstructured place place'
      rcases loops_of_turns hprogress hrelated with
        ⟨next, next', m', n', hturn, hturn', hafter⟩ | hended
      · have hbody : m.state ≠ .header := by
          rw [hfront, hstructured]
          decide
        have hstays := (turn_staysInBody hbody place).dialect
        rw [hturn] at hstays
        rw [loop_of_turn hturn, loop_of_turn hturn']
        exact ih m'.remaining (hremaining ▸ (rank_turn hturn).2) hafter
          (front_turn (Or.inr hfront) hturn) ((front_congr hstays).trans hstructured) next next' rfl
      · exact hended

omit [RegistryStore σ κ] in
/-- A structured header leads in front of the body. -/
theorem classify_of_isStructured {m : Importer ListedLines σ κ}
    (h : (Dialect.ofHeader m.line).isStructured = true) :
    m.classify = (.proceed 0, (m.named (Dialect.ofHeader m.line)).enter .lineStart) ∧
      (m.named (Dialect.ofHeader m.line)).front = .lineStart := by
  cases hdialect : Dialect.ofHeader m.line <;> rw [hdialect] at h <;> cases h <;>
    simp [classify, hdialect, named, front, Dialect.isImportable, Dialect.isStructured]

/-- **Files whose lines read alike are imported alike**: behind headers of the same structured
dialect the runs have the same outcome and leave importers that are recasts of each other. -/
theorem run_of_sameReading (encoding encoding' : FileEncoding) {header header' : Text}
    {body body' : List Text} (store : σ)
    (hheader : Dialect.ofHeader header' = Dialect.ofHeader header)
    (hstructured : (Dialect.ofHeader header).isStructured = true)
    (hbody : List.Forall₂ SameReading body body') :
    (ofLines (κ := κ) encoding' (header' :: body') store).run.1 =
        (ofLines (κ := κ) encoding (header :: body) store).run.1 ∧
      Retells LinesAlike (ofLines (κ := κ) encoding (header :: body) store).run.2
        (ofLines (κ := κ) encoding' (header' :: body') store).run.2 := by
  -- the importers that have read the header
  let entered (encoding : FileEncoding) (body : List Text) (header : Text) :
      Importer ListedLines σ κ :=
    { lines := ⟨body, 1⟩
      store := store
      line := header
      state := .lineStart
      dialect := some (Dialect.ofHeader header)
      report := { encoding := encoding, dialect := some (Dialect.ofHeader header), lines := 1 } }
  have hloop : ∀ encoding body header, (Dialect.ofHeader header).isStructured = true →
      (ofLines encoding (header :: body) store).loop 0 = (entered encoding body header).loop 0 ∧
        (entered encoding body header).front = .lineStart := by
    intro encoding body header hstructured
    obtain ⟨hclassify, hfront⟩ := classify_of_isStructured (m := {
      (entered encoding body header) with
      state := .header
      dialect := none
      report := { encoding := encoding, lines := 1 } }) hstructured
    exact ⟨loop_of_turn ((turn_header rfl).trans hclassify), hfront⟩
  have hrelated : Retells LinesAlike (entered encoding body header)
      (entered encoding' body' header') := by
    have hlines : LinesAlike ⟨body, 1⟩ ⟨body', 1⟩ := ⟨rfl, hbody⟩
    refine retells_of_recast encoding' hlines ?_
    simp only [entered, anew, recast, hheader]
  obtain ⟨hsame, hfront⟩ := hloop encoding body header hstructured
  obtain ⟨hsame', -⟩ := hloop encoding' body' header' (hheader ▸ hstructured)
  obtain ⟨hended, hleft⟩ := hrelated.loop hfront.symm hfront 0 0
  rw [← hsame, ← hsame'] at hended hleft
  refine companions_linesAlike.run (fun h => h.finish fun hlines => ?_) hended hleft
  exact ⟨hlines.1, .nil⟩

end Importer

end RegistryText
