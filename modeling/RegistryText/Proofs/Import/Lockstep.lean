import RegistryText.Proofs.Import.Invariant

/-!
# Imports in lockstep

Two imports of different lines, or into different stores, are compared line by
line.  `Companions R` lists what a relation between their importers must survive:
noting a problem of a line, and the calls of the store.  `Lockstep R` asks more:
the two must take the same lines.  **Then they take their turns together and come
out related** (`Lockstep.turn`, `Lockstep.run`).

The relation is never asked about a place within a line: that a turn does what
its line states has been settled once and for all.
-/

namespace RegistryText

/-- Whether the problem is a refusal of the store, and none of the line. -/
def DiagnosticKind.isRefusal : DiagnosticKind → Bool
  | keyOpenFailed _ _ | setValueFailed _ => true
  | malformedKey | keyDeletionUnsupported _ | invalidValueName | missingAssignment
  | valueDeletionUnsupported | unknownDataType | unknownEscape _ | invalidStringData
  | invalidDwordData | invalidHexData => false

/-- Whether the problem voids its line, and a continued list of bytes all its
lines. -/
def DiagnosticKind.isLineLocal : DiagnosticKind → Bool
  | malformedKey | keyDeletionUnsupported _ | invalidValueName | missingAssignment
  | valueDeletionUnsupported | unknownDataType | invalidStringData | invalidDwordData
  | invalidHexData => true
  | keyOpenFailed _ _ | unknownEscape _ | setValueFailed _ => false

/-- No problem of a line is a refusal of the store. -/
theorem DiagnosticKind.isRefusal_of_isLineLocal {kind : DiagnosticKind}
    (h : kind.isLineLocal = true) : kind.isRefusal = false := by
  cases kind <;> first | rfl | cases h

namespace Reading

/-- Whether the only problems that a reading states are problems of its line. -/
def IsPlain (r : Reading) : Prop :=
  ∀ kind, r.statement = .fault kind → kind.isLineLocal = true

/-- A reading that states a problem of its line is plain. -/
theorem isPlain_fault {kind : DiagnosticKind} (h : kind.isLineLocal = true)
    (unknown : List Char) : IsPlain { unknown := unknown, statement := .fault kind } := by
  intro kind' heq
  cases heq
  exact h

/-- So is one that states none. -/
theorem isPlain_of_ne {r : Reading} (h : ∀ kind, r.statement ≠ .fault kind) : r.IsPlain :=
  fun kind heq => absurd heq (h kind)

/-- Unknown escapes in front of a reading do not matter. -/
theorem IsPlain.behind {r : Reading} (h : r.IsPlain) (unknown : List Char) :
    (r.behind unknown).IsPlain :=
  h

/-- A payload has problems of its line alone. -/
theorem isPlain_ofPayload (name : Option Text) (tag : TypeTag) (payload : Text) :
    (ofPayload name tag payload).IsPlain := by
  unfold ofPayload
  split
  · unfold ofString
    split
    · exact isPlain_fault rfl []
    · intro kind heq
      split at heq <;> cases heq
      rfl
  · unfold ofDword
    split
    · exact isPlain_fault rfl []
    · exact isPlain_of_ne (by simp)
  · unfold ofList
    split
    · exact isPlain_fault rfl []
    · exact isPlain_of_ne (by simp)
    · exact isPlain_of_ne (by simp)

/-- So has an assignment. -/
theorem isPlain_ofAssignment (name : Option Text) (rest : Text) :
    (ofAssignment name rest).IsPlain := by
  unfold ofAssignment
  split
  · exact isPlain_fault rfl []
  unfold ofData
  split
  · exact isPlain_fault rfl []
  split
  · exact isPlain_fault rfl []
  · exact isPlain_ofPayload _ _ _

/-- A line states no problem but its own. -/
theorem isPlain_ofLine (line : Text) : (ofLine line).IsPlain := by
  unfold ofLine
  split
  · unfold ofBracket
    split
    · exact isPlain_fault rfl []
    split
    · exact isPlain_fault rfl []
    · exact isPlain_of_ne (by simp)
  · exact isPlain_ofAssignment _ _
  · unfold ofQuoted
    split
    · exact isPlain_fault rfl []
    · exact (isPlain_ofAssignment _ _).behind _
  · exact isPlain_of_ne (by simp)

/-- **The problems of a line in the body are its own.** -/
theorem isPlain_ofBody (state : ImportState) (line : Text) : (ofBody state line).IsPlain := by
  unfold ofBody
  split
  · unfold ofWindows31
    split <;> exact isPlain_of_ne (by simp)
  · exact isPlain_ofLine line

end Reading

namespace Importer

variable {ρ ρ' σ τ κ μ : Type}

variable [LineSupply ρ] [LineSupply ρ'] [RegistryStore σ κ] [RegistryStore τ μ]

/-- A relation between importers that looks at nothing within a line, and survives
what is noted and what the store is asked. -/
structure Companions (R : Importer ρ σ κ → Importer ρ' τ μ → Prop) : Prop where
  state : ∀ {m n}, R m n → n.state = m.state
  dialect : ∀ {m n}, R m n → n.dialect = m.dialect
  enter : ∀ {m n} (state : ImportState), R m n → R (m.enter state) (n.enter state)
  settled : ∀ {m m' n n'}, R m n → m'.anew m'.state = m.anew m.state →
    n'.anew n'.state = n.anew n.state → R m' n'
  named : ∀ {m n} (d : Dialect), R m n → R (m.named d) (n.named d)
  note : ∀ {m n} {kinds : List DiagnosticKind}, R m n → (∀ kind ∈ kinds, kind.isRefusal = false) →
    R (m.note kinds) (n.note kinds)
  openKey : ∀ {m n} (path : Text), R m n → R (m.openKey path).2 (n.openKey path).2
  write : ∀ {m n} (w : KeyWrite), R m n → R (m.write w) (n.write w)

/-- A relation between companions that take the same lines, as long as `Open` holds
of the lines that are left to the first one. -/
structure Lockstep (Open : ρ → Prop) (R : Importer ρ σ κ → Importer ρ' τ μ → Prop) : Prop
    extends Companions R where
  back : ∀ {lines}, Open (LineSupply.next lines).2 → Open lines
  next : ∀ {m n}, R m n → Open (LineSupply.next m.lines).2 →
    (LineSupply.next n.lines).1 = (LineSupply.next m.lines).1
  fetch : ∀ {m n}, R m n → Open (LineSupply.next m.lines).2 → R m.fetch.2 n.fetch.2

variable {R : Importer ρ σ κ → Importer ρ' τ μ → Prop} {m : Importer ρ σ κ}
  {n : Importer ρ' τ μ}

namespace Companions

/-- Companions stay so if the same state is entered afresh. -/
theorem anew (hR : Companions R) (state : ImportState) (h : R m n) :
    R (m.anew state) (n.anew state) :=
  hR.settled (hR.enter state h) rfl rfl

/-- Companions come to the same state in front of a line. -/
theorem front (hR : Companions R) (h : R m n) : n.front = m.front := by
  rw [Importer.front, hR.dialect h, Importer.front]

/-- Both do the same with a statement, if they do with a continued list. -/
theorem carryOut (hR : Companions R) (h : R m n) {statement : Statement}
    (hplain : ∀ kind, statement = .fault kind → kind.isLineLocal = true)
    (hlist : ∀ name type bytes, statement = .list name type bytes →
      (n.gather bytes).1 = (m.gather bytes).1 ∧ R (m.gather bytes).2 (n.gather bytes).2) :
    (n.carryOut statement).1 = (m.carryOut statement).1 ∧
      R (m.carryOut statement).2 (n.carryOut statement).2 := by
  have hnote : ∀ {m n} {kind : DiagnosticKind}, R m n → kind.isLineLocal = true →
      R (m.note [kind]) (n.note [kind]) := by
    intro m n kind h hkind
    refine hR.note h ?_
    simpa using DiagnosticKind.isRefusal_of_isLineLocal hkind
  cases statement with
  | nothing => exact ⟨rfl, h⟩
  | key path => exact ⟨rfl, hR.openKey path h⟩
  | entry path w => exact ⟨rfl, hR.write w (hR.openKey path h)⟩
  | value w => exact ⟨rfl, hR.write w h⟩
  | fault kind => exact ⟨rfl, hnote h (hplain kind rfl)⟩
  | list name type bytes =>
      obtain ⟨hend, hrelated⟩ := hlist name type bytes rfl
      simp only [Importer.carryOut]
      revert hend hrelated
      rcases m.gather bytes with ⟨ending, m'⟩
      rcases n.gather bytes with ⟨ending', n'⟩
      rintro rfl hrelated
      cases ending' with
      | complete bytes => exact ⟨rfl, hR.write _ hrelated⟩
      | malformed | missing => exact ⟨rfl, hnote hrelated rfl⟩
      | failed e => exact ⟨rfl, hR.enter .hexPayload hrelated⟩

/-- Both note the same unknown escapes. -/
theorem noteUnknown (hR : Companions R) (h : R m n) (unknown : List Char) :
    R (m.note (unknown.map .unknownEscape)) (n.note (unknown.map .unknownEscape)) := by
  refine hR.note h ?_
  intro kind hkind
  obtain ⟨c, -, rfl⟩ := List.mem_map.mp hkind
  rfl

/-- Both read the same header. -/
theorem classify (hR : Companions R) (h : R m n) (hline : n.line = m.line) :
    n.classify.1 = m.classify.1 ∧ R m.classify.2 n.classify.2 := by
  have hnamed := hR.named (Dialect.ofHeader m.line) h
  simp only [Importer.classify, hline]
  split
  · exact ⟨rfl, hR.settled hnamed rfl rfl⟩
  split
  · exact ⟨rfl, hR.settled (hR.enter .lineStart hnamed) rfl rfl⟩
  · exact ⟨rfl, hR.settled (hR.enter .windows31Line hnamed) rfl rfl⟩

/-- Runs end as their loops do. -/
theorem run (hR : Companions R) (hfinish : ∀ {m n}, R m n → R m.finish n.finish)
    (hended : (n.loop 0).1 = (m.loop 0).1) (hrelated : R (m.loop 0).2 (n.loop 0).2) :
    n.run.1 = m.run.1 ∧ R m.run.2 n.run.2 := by
  have hfinished := hfinish hrelated
  rcases hloop : m.loop 0 with ⟨answer, m'⟩
  rcases hloop' : n.loop 0 with ⟨answer', n'⟩
  rw [hloop, hloop'] at hended hfinished
  obtain rfl : answer' = answer := hended
  simp only [Importer.run, hloop, hloop', hR.dialect hfinished]
  cases answer' <;> exact ⟨rfl, hfinished⟩

end Companions

/-! ### The same state, key and store -/

section Twins

variable {L : ρ → ρ' → Prop} {D : List Diagnostic → List Diagnostic → Prop}

/-- Two importers in the same state that hold the same key and store; their lines and their
diagnostics are related. -/
structure Twins (L : ρ → ρ' → Prop) (D : List Diagnostic → List Diagnostic → Prop)
    (m : Importer ρ σ κ) (n : Importer ρ' σ κ) : Prop where
  lines : L m.lines n.lines
  state : n.state = m.state
  dialect : n.dialect = m.dialect
  key : n.key = m.key
  store : n.store = m.store
  noted : D m.report.diagnostics n.report.diagnostics

/-- Diagnostics stay related when the same is noted of related lines. -/
def NotesAlike (L : ρ → ρ' → Prop) (D : List Diagnostic → List Diagnostic → Prop) : Prop :=
  ∀ lines lines' d d' (kinds : List DiagnosticKind), L lines lines' → D d d' →
    D (d ++ kinds.map (Diagnostic.mk (LineSupply.lineNumber lines)))
      (d' ++ kinds.map (Diagnostic.mk (LineSupply.lineNumber lines')))

variable {m : Importer ρ σ κ} {n : Importer ρ' σ κ}

omit [RegistryStore σ κ] in
/-- Twins note the same and stay twins. -/
theorem Twins.note (hD : NotesAlike L D) (h : Twins L D m n) (kinds : List DiagnosticKind) :
    Twins L D (m.note kinds) (n.note kinds) :=
  { h with noted := hD _ _ _ _ kinds h.lines h.noted }

omit [LineSupply ρ] [LineSupply ρ'] in
/-- Twins close the same key. -/
theorem Twins.closeKey (h : Twins L D m n) : Twins L D m.closeKey n.closeKey := by
  have hkey := h.key
  have hstore := h.store
  cases hopen : m.key with
  | none =>
      rw [hopen] at hkey
      simp only [Importer.closeKey, hopen, hkey]
      exact { h with key := rfl }
  | some key =>
      rw [hopen] at hkey
      simp only [Importer.closeKey, hopen, hkey, hstore]
      exact { h with key := rfl, store := rfl }

/-- The store answers both alike. -/
theorem Twins.openKey (hD : NotesAlike L D) (h : Twins L D m n) (path : Text) :
    Twins L D (m.openKey path).2 (n.openKey path).2 := by
  have hclosed := h.closeKey
  have hstore := hclosed.store
  simp only [Importer.openKey, hstore]
  rcases requestKey (κ := κ) m.closeKey.store path with ⟨cause | key, store⟩
  · have hrefused : Twins L D { m.closeKey with store := store }
        { n.closeKey with store := store } := { hclosed with store := rfl }
    exact hrefused.note hD _
  · exact { hclosed with store := rfl, key := rfl }

/-- A write of twins is refused to both or to none. -/
theorem Twins.write (hD : NotesAlike L D) (h : Twins L D m n) (w : KeyWrite) :
    Twins L D (m.write w) (n.write w) := by
  have hkey := h.key
  have hstore := h.store
  cases hopen : m.key with
  | none =>
      rw [hopen] at hkey
      simpa only [Importer.write, hopen, hkey] using h
  | some key =>
      rw [hopen] at hkey
      simp only [Importer.write, hopen, hkey, hstore]
      have hset : ∀ store : σ, Twins L D
          { m with store := store, key := some key } { n with store := store, key := some key } :=
        fun store => { h with store := rfl, key := rfl }
      rcases RegistryStore.setValue m.store key w.name w.type w.data with ⟨cause | _, store⟩
      · exact (hset store).note hD [.setValueFailed cause]
      · exact { hset store with dialect := h.dialect }

/-- Twins end their runs as twins. -/
theorem Twins.finish (hclose : ∀ {lines lines'}, L lines lines' →
      L (LineSupply.close lines) (LineSupply.close lines')) (h : Twins L D m n) :
    Twins L D m.finish n.finish := by
  have hclosed := h.closeKey
  exact { hclosed with lines := hclose hclosed.lines }

/-- Nothing else is looked at. -/
theorem companions_twins (hD : NotesAlike L D) :
    Companions (Twins L D : Importer ρ σ κ → Importer ρ' σ κ → Prop) where
  state h := h.state
  dialect h := h.dialect
  enter state h := { h with state := rfl }
  settled {m m' n n'} h hm hn := by
    obtain ⟨hlines, hstore, hkey, hstate, hdialect, hreport⟩ := anew_eq_iff.mp hm
    obtain ⟨hlines', hstore', hkey', hstate', hdialect', hreport'⟩ := anew_eq_iff.mp hn
    exact {
      lines := by rw [hlines, hlines']; exact h.lines
      state := by rw [hstate, hstate', h.state]
      dialect := by rw [hdialect, hdialect', h.dialect]
      key := by rw [hkey, hkey', h.key]
      store := by rw [hstore, hstore', h.store]
      noted := by rw [hreport, hreport']; exact h.noted }
  named d h := { h with dialect := rfl }
  note h _ := h.note hD _
  openKey path h := h.openKey hD path
  write w h := h.write hD w

end Twins

namespace Lockstep

variable {Open : ρ → Prop}

/-- Both take the same line. -/
theorem takesAlike (hR : Lockstep Open R) : TakesAlike Open R where
  back := hR.back
  fetch := by
    intro m n m' answer h hfetch hopen
    rw [lines_fetch hfetch] at hopen
    have hnext := hR.next h hopen
    have hrelated := hR.fetch h hopen
    rcases hm : LineSupply.next m.lines with ⟨given, rest⟩
    rcases hn : LineSupply.next n.lines with ⟨given', rest'⟩
    rw [hm, hn] at hnext
    obtain rfl : given' = given := hnext
    rcases given' with message | _ | line <;>
      simp only [Importer.fetch, hm, hn] at hfetch hrelated ⊢ <;> cases hfetch <;>
      exact ⟨_, rfl, hrelated, by simp⟩

/-- Lines that are not open do not become so. -/
theorem invariant_closed (hR : Lockstep Open R) :
    Invariant fun m : Importer ρ σ κ => ¬Open m.lines :=
  invariant_lines (fun lines => ¬Open lines) fun _ hclosed hopen => hclosed (hR.back hopen)

/-- The lines were open before a statement if they are open behind it. -/
theorem open_obey (hR : Lockstep Open R) {r : Reading} (hopen : Open (m.obey r).2.lines) :
    Open m.lines :=
  Classical.byContradiction fun h => hR.invariant_closed.obey h r hopen

/-- The lines were open at a moment if they are open at a later one. -/
theorem open_visits (hR : Lockstep Open R) {m' : Importer ρ σ κ} {place next : Nat}
    (hvisits : m.Visits place m' next) (hm : m.Between) (hopen : Open m'.lines) :
    Open m.lines :=
  Classical.byContradiction fun h => (hR.invariant_closed.visits h hm hvisits).1 hopen

/-- Both do what their line states. -/
theorem obey (hR : Lockstep Open R) (h : R m n) {r : Reading} (hplain : r.IsPlain)
    (hopen : Open (m.obey r).2.lines) :
    (n.obey r).1 = (m.obey r).1 ∧ R (m.obey r).2 (n.obey r).2 := by
  have hnoted := hR.noteUnknown h r.unknown
  refine hR.carryOut hnoted hplain fun name type bytes hlist =>
    hR.takesAlike.gather hnoted bytes ?_
  revert hopen
  rw [Importer.obey, hlist, Importer.carryOut]
  rcases (m.note (r.unknown.map .unknownEscape)).gather bytes with ⟨ending, m'⟩
  cases ending with
  | complete bytes => exact fun hopen => lines_write m' _ ▸ hopen
  | malformed | missing | failed e => exact fun hopen => hopen

/-- Both take the header and read it. -/
theorem headerStep (hR : Lockstep Open R) (h : R m n) (hopen : Open m.headerStep.2.lines) :
    n.headerStep.1 = m.headerStep.1 ∧ R m.headerStep.2 n.headerStep.2 := by
  have hclassify : ∀ m : Importer ρ σ κ, m.classify.2.lines = m.lines := fun m =>
    lines_of_outside m.outside_classify
  have hfetched : Open m.fetch.2.lines := by
    revert hopen
    unfold Importer.headerStep
    split <;> rename_i heq <;> simp only [heq, hclassify] <;> exact fun hopen => hopen
  rcases hfetch : m.fetch with ⟨e | _ | _, m'⟩
  all_goals
    rw [hfetch] at hfetched
    obtain ⟨n', hfetch', hrelated, hline⟩ := hR.takesAlike.fetch h hfetch hfetched
    simp only [Importer.headerStep, hfetch, hfetch']
  · exact ⟨trivial, hrelated⟩
  · exact hR.classify (m := { m' with line := [] }) (n := { n' with line := [] })
      (hR.settled hrelated rfl rfl) rfl
  · exact hR.classify hrelated (hline rfl)

/-- **Both take their turns together.** -/
theorem turn (hR : Lockstep Open R) (h : R m n) (hm : m.Between) (place place' : Nat)
    (hopen : Open (m.turn place).2.lines) :
    (n.turn place').1.unplaced = (m.turn place).1.unplaced ∧
      R (m.turn place).2 (n.turn place').2 := by
  rcases hm with hheader | hfront
  · rw [turn_header hheader] at hopen ⊢
    rw [turn_header ((hR.state h).trans hheader)]
    obtain ⟨hprogress, hrelated⟩ := hR.headerStep h hopen
    exact ⟨congrArg Progress.unplaced hprogress, hrelated⟩
  have hfront' : n.state = n.front := by rw [hR.state h, hR.front h, hfront]
  rcases hfetch : m.fetch with ⟨e | _ | _, m'⟩
  · rw [turn_of_error hfront hfetch] at hopen ⊢
    obtain ⟨n', hfetch', hrelated, -⟩ := hR.takesAlike.fetch h hfetch hopen
    rw [turn_of_error hfront' hfetch']
    exact ⟨rfl, hrelated⟩
  · rw [turn_of_end hfront hfetch] at hopen ⊢
    obtain ⟨n', hfetch', hrelated, -⟩ := hR.takesAlike.fetch h hfetch hopen
    rw [turn_of_end hfront' hfetch']
    exact ⟨rfl, hrelated⟩
  · have hm := turn_of_line hfront hfetch place
    rw [(settled_eq_iff.mp hm).2.1] at hopen
    obtain ⟨n', hfetch', hrelated, hline⟩ :=
      hR.takesAlike.fetch h hfetch (hR.open_obey (m := m'.anew m.front) hopen)
    have hn := turn_of_line hfront' hfetch' place'
    rw [hR.front h, hline rfl] at hn
    obtain ⟨hprogress, hrelated'⟩ := hR.obey (hR.anew m.front hrelated)
      (Reading.isPlain_ofBody m.front m'.line) hopen
    exact ⟨(congrArg Prod.fst hn).trans ((congrArg Progress.unplaced hprogress).trans
      (congrArg Prod.fst hm).symm), hR.settled hrelated' (congrArg Prod.snd hm)
        (congrArg Prod.snd hn)⟩

/-- A turn that goes on is one that goes on for both. -/
theorem turn_proceed (hR : Lockstep Open R) (h : R m n) (hm : m.Between) {place next : Nat}
    {m' : Importer ρ σ κ} (hturn : m.turn place = (.proceed next, m')) (hopen : Open m'.lines)
    (place' : Nat) : ∃ next' n', n.turn place' = (.proceed next', n') ∧ R m' n' := by
  obtain ⟨hprogress, hrelated⟩ := hR.turn h hm place place' (by rw [hturn]; exact hopen)
  rcases hturn' : n.turn place' with ⟨next' | _ | e, n'⟩ <;>
    rw [hturn, hturn'] at hprogress hrelated
  · exact ⟨next', n', rfl, hrelated⟩
  · cases hprogress
  · cases hprogress

/-- Both visit related moments. -/
theorem visits (hR : Lockstep Open R) {m' : Importer ρ σ κ} {place next : Nat}
    (hvisits : m.Visits place m' next) (h : R m n) (hm : m.Between) (hopen : Open m'.lines)
    (place' : Nat) : ∃ next' n', n.Visits place' n' next' ∧ R m' n' := by
  induction hvisits generalizing n place' with
  | here m place => exact ⟨place', n, .here n place', h⟩
  | @turn m m₁ m' place next₁ next first rest ih =>
      have hfront : m₁.Between := Or.inr (front_turn hm first)
      obtain ⟨next', n₁, hturn, hrelated⟩ :=
        hR.turn_proceed h hm first (hR.open_visits rest hfront hopen) place'
      obtain ⟨next'', n', hvisits, hrelated'⟩ := ih hrelated hfront hopen next'
      exact ⟨next'', n', .turn hturn hvisits, hrelated'⟩

/-- The loops of both end alike. -/
theorem loop (hR : Lockstep Open R) (hopen : ∀ lines, Open lines) (h : R m n) (hm : m.Between)
    (place place' : Nat) :
    (n.loop place').1 = (m.loop place).1 ∧ R (m.loop place).2 (n.loop place').2 := by
  induction hremaining : m.remaining using Nat.strongRecOn generalizing m n place place' with
  | ind remaining ih =>
      obtain ⟨hprogress, hrelated⟩ := hR.turn h hm place place' (hopen _)
      rcases loops_of_turns hprogress hrelated with
        ⟨next, next', m', n', hturn, hturn', hafter⟩ | hended
      · rw [loop_of_turn hturn, loop_of_turn hturn']
        exact ih m'.remaining (hremaining ▸ (rank_turn hturn).2) hafter
          (Or.inr (front_turn hm hturn)) next next' rfl
      · exact hended

/-- **The runs of both have the same outcome**, and leave related importers. -/
theorem run (hR : Lockstep Open R) (hopen : ∀ lines, Open lines)
    (hfinish : ∀ {m n}, R m n → R m.finish n.finish) (h : R m n) (hm : m.Between) :
    n.run.1 = m.run.1 ∧ R m.run.2 n.run.2 := by
  obtain ⟨hended, hrelated⟩ := hR.loop hopen h hm 0 0
  exact hR.toCompanions.run hfinish hended hrelated

end Lockstep

end Importer

end RegistryText
