import RegistryText.Proofs.Import.Body
import RegistryText.Proofs.Lines.Listed
import RegistryText.Proofs.Lines.Rounds

/-!
# The number of steps of a run

A step that goes on takes lines, comes closer to the next one, or both: it never raises
the rank of the state unless it takes a line, and then to five at most (`gives_step`).
So steps that lead from one moment to another are no more than **six for every line
that is taken between the two, and five** (`gives_goes`), and steps that lead back to
the same state take a line.

A step that finishes a list of bytes is a loop of its own, each round of which takes a
line (`endsWithin_continueList`).  With the loops of the line reader this is all that
goes round in a run, so **every run ends** (`run_ends`).
-/

namespace RegistryText

namespace LineSupply.Gives

variable {ρ : Type} [LineSupply ρ] {lines next rest : ρ} {texts more : List Text}

/-- What is given comes before what is given next. -/
theorem append (h : Gives lines texts next) (h' : Gives next more rest) :
    Gives lines (texts ++ more) rest := by
  induction h with
  | nothing lines => exact h'
  | line first tail ih => exact .line first (ih h')

/-- A supply gives no more lines than its size. -/
theorem length_le (h : Gives lines texts rest) :
    texts.length + LineSupply.size rest ≤ LineSupply.size lines := by
  induction h with
  | nothing lines => simp
  | line first tail ih =>
      have hless := LineSupply.size_next first
      rw [List.length_cons]
      omega

end LineSupply.Gives

namespace Importer

section Lists

variable {ρ σ κ : Type} [LineSupply ρ] {m m' : Importer ρ σ κ}

/-- The line that is taken is the one that the supply gives. -/
theorem gives_fetch (h : m.fetch = (.ok true, m')) :
    LineSupply.Gives m.lines [m'.line] m'.lines := by
  unfold fetch at h
  split at h
  next line rest hnext =>
    cases h
    exact .line hnext (.nothing rest)
  · cases h
  · cases h

/-- A list of bytes goes on behind a comment, and behind a line that continues it. -/
inductive ListGoesOn : Importer ρ σ κ × Bytes → Importer ρ σ κ × Bytes → Prop
  | comment {m m' : Importer ρ σ κ} {bytes : Bytes} (fetch : m.fetch = (.ok true, m'))
      (comment : m'.line.skipBlanks.startsWith [';'] = true) : ListGoesOn (m, bytes) (m', bytes)
  | line {m m' : Importer ρ σ κ} {bytes more : Bytes} (fetch : m.fetch = (.ok true, m'))
      (line : m'.line.skipBlanks.startsWith [';'] = false)
      (read : HexList.readLine m'.line.skipBlanks = (some .continued, more)) :
      ListGoesOn (m, bytes) (m', bytes ++ more)

/-- **The lines that continue a list of bytes come to an end.** -/
theorem endsWithin_continueList (m : Importer ρ σ κ) (bytes : Bytes) :
    EndsWithin ListGoesOn (fun s => s.1.continueList (some .continued) s.2)
      (LineSupply.size m.lines) (m, bytes) := by
  refine endsWithin_of_lt (fun s => LineSupply.size s.1.lines) (m, bytes) ?_ ?_
  · intro s s' hround
    cases hround with
    | comment fetch comment => exact (continueList_of_comment fetch comment).symm
    | line fetch line read =>
        show continueList _ _ _ = continueList _ _ _
        rw [continueList_of_line fetch line, read]
  · intro s s' hround
    cases hround with
    | comment fetch _ => exact (size_fetch fetch).1
    | line fetch _ _ => exact (size_fetch fetch).1

/-- A list of bytes takes lines one after the other. -/
theorem gives_continueList {ending : Option HexList.Ending} {bytes : Bytes} {next : Nat}
    (h : m.continueList ending bytes = (.proceed next, m')) :
    ∃ texts, LineSupply.Gives m.lines texts m'.lines := by
  fun_induction continueList m ending bytes with
  | case1 m bytes | case2 m bytes =>
      cases h
      exact ⟨[], .nothing _⟩
  | case3 m bytes e m' hfetch | case4 m bytes m' hfetch => cases h
  | case5 m bytes m' hfetch hless rest hcomment ih =>
      obtain ⟨texts, htexts⟩ := ih h
      exact ⟨_, (gives_fetch hfetch).append htexts⟩
  | case6 m bytes m' hfetch hless rest hlist r ih =>
      obtain ⟨texts, htexts⟩ := ih h
      exact ⟨_, (gives_fetch hfetch).append htexts⟩

end Lists

section Steps

variable {ρ σ κ : Type} [LineSupply ρ] [RegistryStore σ κ] {m m' : Importer ρ σ κ}
  {place next : Nat}

/-- A step in front of a line takes this line. -/
theorem gives_front_step (hfront : m.state.rank = 0) (h : m.step place = (.proceed next, m')) :
    ∃ text, LineSupply.Gives m.lines [text] m'.lines := by
  have htaken : ∀ {m'' : Importer ρ σ κ}, m.fetch = (.ok true, m'') → m'.lines = m''.lines →
      ∃ text, LineSupply.Gives m.lines [text] m'.lines := by
    intro m'' hfetch hlines
    rw [hlines]
    exact ⟨_, gives_fetch hfetch⟩
  unfold step at h
  split at h
  case h_1 =>
    unfold headerStep at h
    split at h
    · cases h
    next m'' hfetch => exact htaken hfetch (lines_classify h)
    next m'' hfetch => exact absurd h (classify_ne_proceed rfl)
  case h_2 =>
    unfold windows31Step at h
    split at h
    · cases h
    · cases h
    next m'' hfetch =>
      split at h
      · exact htaken hfetch (lines_windows31Assignment h)
      · cases h
        exact htaken hfetch rfl
  case h_3 =>
    unfold lineStartStep at h
    split at h
    · cases h
    · cases h
    next m'' hfetch => exact htaken hfetch (lines_dispatch h)
  all_goals simp_all [ImportState.rank]

/-- A step within a line takes none, unless it is the one that finishes a list of bytes. -/
theorem lines_inner_step (hinner : m.state.rank ≠ 0) (hlist : m.state ≠ .hexPayload)
    (place : Nat) : (m.step place).2.lines = m.lines := by
  cases hstate : m.state with
  | header | windows31Line | lineStart => simp [hstate, ImportState.rank] at hinner
  | hexPayload => exact absurd hstate hlist
  | keyName =>
      simp only [step, hstate, keyNameStep]
      split
      · rfl
      split
      · rfl
      · exact lines_openKey m _
  | defaultName => simp only [step, hstate, defaultNameStep]
  | quotedName =>
      simp only [step, hstate]
      exact lines_of_outside (m.outside_quotedNameStep place)
  | assignment =>
      simp only [step, hstate]
      exact lines_of_outside (m.outside_assignmentStep place)
  | typeTag =>
      simp only [step, hstate]
      exact lines_of_outside (m.outside_typeTagStep place)
  | stringPayload =>
      simp only [step, hstate]
      exact lines_of_outside (m.outside_stringStep place)
  | dwordPayload =>
      simp only [step, hstate]
      exact lines_of_outside (m.outside_dwordStep place)
  | writing =>
      simp only [step, hstate, writingStep]
      split <;> exact lines_setStaged m

/-- **A step that goes on takes lines or comes closer to the next one.** -/
theorem gives_step (h : m.step place = (.proceed next, m')) :
    ∃ texts, LineSupply.Gives m.lines texts m'.lines ∧
      m'.state.rank + 1 ≤ m.state.rank + 6 * texts.length := by
  by_cases hfront : m.state.rank = 0
  · obtain ⟨text, htext⟩ := gives_front_step hfront h
    refine ⟨[text], htext, ?_⟩
    have := m'.state.rank_le
    simp only [List.length_singleton]
    omega
  by_cases hlist : m.state = .hexPayload
  · have hstep : m.hexStep place = (.proceed next, m') := by simpa only [step, hlist] using h
    obtain ⟨texts, htexts⟩ := gives_continueList hstep
    have hrank := (size_continueList hstep).2
    refine ⟨texts, htexts, ?_⟩
    rw [hlist, ImportState.rank]
    omega
  · have hlines : m'.lines = m.lines := by
      have hinner := lines_inner_step hfront hlist place
      rwa [h] at hinner
    refine ⟨[], hlines ▸ .nothing m.lines, ?_⟩
    have hless := remaining_step h
    simp only [remaining, hlines] at hless
    simp only [List.length_nil]
    omega

/-- A step that goes on leads from an importer at a place of its line to the next one. -/
def Goes (s s' : Importer ρ σ κ × Nat) : Prop :=
  s.1.step s.2 = (.proceed s'.2, s'.1)

/-- The steps of a loop come to an end. -/
theorem endsWithin_loop (m : Importer ρ σ κ) (place : Nat) :
    EndsWithin Goes (fun s => s.1.loop s.2) m.remaining (m, place) := by
  refine endsWithin_of_lt (fun s => s.1.remaining) (m, place) ?_ ?_
  · exact fun s s' hstep => (loop_of_proceed hstep).symm
  · exact fun s s' hstep => remaining_step hstep

/-- **Steps are no more than six for every line that they take, and the rank that they
begin with.** -/
theorem gives_goes {n : Nat} {s s' : Importer ρ σ κ × Nat} (h : Rounds Goes n s s') :
    ∃ texts, LineSupply.Gives s.1.lines texts s'.1.lines ∧
      n + s'.1.state.rank ≤ s.1.state.rank + 6 * texts.length := by
  induction h with
  | none s => exact ⟨[], .nothing _, by simp⟩
  | more first rest ih =>
      obtain ⟨texts, htexts, hrank⟩ := gives_step first
      obtain ⟨more, hmore, hrest⟩ := ih
      refine ⟨texts ++ more, htexts.append hmore, ?_⟩
      rw [List.length_append]
      omega

/-- A loop goes on until a step ends it, and a run lets go of what this step leaves. -/
theorem exists_last_step (m : Importer ρ σ κ) :
    ∃ n last place progress ended, Rounds Goes n (m, 0) (last, place) ∧
      last.step place = (progress, ended) ∧ (∀ next, progress ≠ .proceed next) ∧
      m.run.2 = ended.finish := by
  obtain ⟨n, ⟨last, place⟩, hrounds, hlast⟩ := (m.endsWithin_loop 0).last
  have hloop : last.loop place = m.loop 0 := (m.endsWithin_loop 0).result_eq hrounds
  rcases hstep : last.step place with ⟨progress, ended⟩
  refine ⟨n, last, place, progress, ended, hrounds, hstep, ?_, ?_⟩
  · rintro next rfl
    exact hlast (ended, next) hstep
  · rw [run_snd, ← hloop]
    cases progress with
    | proceed next => exact absurd hstep (hlast (ended, next))
    | finished => rw [loop_of_finished hstep]
    | failed e => rw [loop_of_failed hstep]

end Steps

end Importer

/-- **Every run ends**, whatever importer of a finite source it begins with.

Its steps are at most six for every line that they take, and six.  No moments of a run are
further apart than six steps for every line taken between them, and five; and steps that
lead back to the same state take a line.  No more lines are taken than the reader has bytes
and failures ahead and units at hand.  The loops within a step end as well: the lines that
continue a list of bytes, the reads until a line is found, each of which asks for a byte at
least, the doubling of the buffer, and the reads that are made again. -/
theorem run_ends {σ κ : Type} [RegistryStore σ κ] (m : Importer LineReader σ κ) :
    (∃ n last place progress ended texts, Rounds Importer.Goes n (m, 0) (last, place) ∧
      last.step place = (progress, ended) ∧ (∀ next, progress ≠ .proceed next) ∧
      m.run.2 = ended.finish ∧ LineSupply.Gives m.lines texts last.lines ∧
      texts.length ≤ m.lines.size ∧ n + 1 ≤ 6 * texts.length + 6) ∧
    (∀ (m₁ m₂ : Importer LineReader σ κ) (place₁ place₂ n : Nat),
      Rounds Importer.Goes n (m₁, place₁) (m₂, place₂) →
      ∃ texts, LineSupply.Gives m₁.lines texts m₂.lines ∧ texts.length ≤ m₁.lines.size ∧
        n ≤ 6 * texts.length + 5 ∧ (m₂.state = m₁.state → 0 < n → texts ≠ [])) ∧
    (∀ (m₁ : Importer LineReader σ κ) (bytes : Bytes),
      EndsWithin Importer.ListGoesOn (fun s => s.1.continueList (some .continued) s.2)
        m₁.lines.size (m₁, bytes)) ∧
    (∀ r : LineReader, EndsWithin LineReader.ReadsOn LineReader.next r.unread r ∧
      0 < r.makeRoom.request) ∧
    (∀ (pending : Nat) (c : Capacity),
      EndsWithin (Capacity.Doubles pending) (Capacity.grow · pending)
        (pending + 3 - c.units) c) ∧
    ∀ (count : Nat) (segments : List Segment),
      EndsWithin Source.ReadAgain (Source.readSegments count) segments.length segments := by
  refine ⟨?_, ?_, Importer.endsWithin_continueList,
    fun r => ⟨r.endsWithin_next, r.request_makeRoom_pos⟩, Capacity.endsWithin_grow,
    Source.endsWithin_readSegments⟩
  · obtain ⟨n, last, place, progress, ended, hrounds, hstep, hends, hrun⟩ := m.exists_last_step
    obtain ⟨texts, htexts, hsteps⟩ := Importer.gives_goes hrounds
    have := m.state.rank_le
    dsimp only at hsteps
    exact ⟨n, last, place, progress, ended, texts, hrounds, hstep, hends, hrun, htexts,
      Nat.le_of_add_right_le htexts.length_le, by omega⟩
  · intro m₁ m₂ place₁ place₂ n hrounds
    obtain ⟨texts, htexts, hsteps⟩ := Importer.gives_goes hrounds
    have hrank := m₁.state.rank_le
    dsimp only at hsteps
    refine ⟨texts, htexts, Nat.le_of_add_right_le htexts.length_le, by omega, ?_⟩
    rintro hsame hpos rfl
    rw [hsame, List.length_nil] at hsteps
    omega

end RegistryText
