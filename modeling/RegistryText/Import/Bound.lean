import RegistryText.Import.Step

/-!
# Bounds on the steps of an import

**Every step that goes on either takes a line or comes closer to the next
one.**  The rank of a state is the greatest number of steps that lie between it
and the next line: five behind the first quote of a value line, none in front of
a line.  So six times the size of the supply and the rank together bound the
number of steps that are left.
-/

namespace RegistryText

/-- The greatest number of steps before a line is taken. -/
def ImportState.rank : ImportState → Nat
  | header | windows31Line | lineStart => 0
  | keyName | writing => 1
  | stringPayload | dwordPayload | hexPayload => 2
  | typeTag => 3
  | assignment => 4
  | defaultName | quotedName => 5

/-- A line has at most six states. -/
theorem ImportState.rank_le (state : ImportState) : state.rank ≤ 5 := by
  cases state <;> decide

namespace Importer

variable {ρ σ κ : Type}

/-- An importer whose header has just been read stands in front of a line. -/
theorem lines_classify {m m' : Importer ρ σ κ} {next : Nat}
    (h : m.classify = (.proceed next, m')) : m'.lines = m.lines := by
  simp only [classify] at h
  split at h
  · cases h
  · split at h <;> cases h <;> rfl

/-- The first character of a line takes no line. -/
theorem lines_dispatch {m m' : Importer ρ σ κ} {next : Nat}
    (h : m.dispatch = (.proceed next, m')) : m'.lines = m.lines := by
  simp only [dispatch] at h
  split at h <;> cases h <;> rfl

/-- The empty line is no header. -/
theorem classify_ne_proceed {m m' : Importer ρ σ κ} {next : Nat} (hline : m.line = []) :
    m.classify ≠ (.proceed next, m') := by
  intro h
  have hinvalid : Dialect.ofHeader [] = .invalid := by decide
  simp only [classify, hline, hinvalid] at h
  cases h

section Store

variable [RegistryStore σ κ]

/-- A key that is closed takes no line. -/
@[simp] theorem lines_closeKey (m : Importer ρ σ κ) : m.closeKey.lines = m.lines := by
  unfold closeKey
  split <;> rfl

variable [LineSupply ρ]

/-- Nor does one that is opened. -/
@[simp] theorem lines_openKey (m : Importer ρ σ κ) (path : Text) :
    (m.openKey path).2.lines = m.lines := by
  simp only [openKey]
  split <;> exact lines_closeKey m

/-- Nor does a write. -/
@[simp] theorem lines_setStaged (m : Importer ρ σ κ) : m.setStaged.lines = m.lines := by
  simp only [setStaged]
  split
  · rfl
  · split <;> rfl

/-- The assignment on a line of the Windows 3.1 dialect takes no further line. -/
theorem lines_windows31Assignment {m m' : Importer ρ σ κ} {next : Nat}
    (h : m.windows31Assignment = (.proceed next, m')) : m'.lines = m.lines := by
  simp only [windows31Assignment] at h
  rcases hopen : m.openKey (m.line.takeWhile fun c => !isWhiteSpace c) with ⟨opened, m''⟩
  have hlines : m''.lines = m.lines := by
    rw [← lines_openKey m (m.line.takeWhile fun c => !isWhiteSpace c), hopen]
  rw [hopen] at h
  cases opened <;> cases h <;> exact hlines

end Store

variable [LineSupply ρ]

/-- A list of bytes is finished on its own line or a later one, in front of the
next line or of the write. -/
theorem size_continueList {m m' : Importer ρ σ κ} {ending : Option HexList.Ending}
    {bytes : Bytes} {next : Nat} (h : m.continueList ending bytes = (.proceed next, m')) :
    LineSupply.size m'.lines ≤ LineSupply.size m.lines ∧ m'.state.rank ≤ 1 := by
  fun_induction continueList m ending bytes with
  | case1 m bytes => cases h; exact ⟨Nat.le_refl _, Nat.zero_le 1⟩
  | case2 m bytes => cases h; exact ⟨Nat.le_refl _, Nat.le_refl 1⟩
  | case3 m bytes e m' hfetch => cases h
  | case4 m bytes m' hfetch => cases h
  | case5 m bytes m' hfetch hless rest hcomment ih =>
      have := ih h
      omega
  | case6 m bytes m' hfetch hless rest hlist r ih =>
      have := ih h
      omega

/-- What bounds the number of steps left. -/
def remaining (m : Importer ρ σ κ) : Nat :=
  6 * LineSupply.size m.lines + m.state.rank

/-- A step that takes a line comes closer to the end. -/
theorem remaining_of_size {m m' : Importer ρ σ κ}
    (h : LineSupply.size m'.lines < LineSupply.size m.lines) : m'.remaining < m.remaining := by
  have := ImportState.rank_le m'.state
  unfold remaining
  omega

/-- A step on the current line comes closer to the end. -/
theorem remaining_of_state {m m' : Importer ρ σ κ} (s s' : ImportState)
    (hlines : m'.lines = m.lines) (hs : m.state = s) (hs' : m'.state = s')
    (hrank : s'.rank < s.rank) : m'.remaining < m.remaining := by
  unfold remaining
  rw [hlines, hs, hs']
  omega

/-- Behind a type tag two states are left, that of the payload and that of the write. -/
theorem rank_payloadState (payload : PayloadForm) : (payloadState payload).rank = 2 := by
  cases payload <;> rfl

variable [RegistryStore σ κ]

/-- The steps in front of a line take one. -/
theorem size_step {m m' : Importer ρ σ κ} {place next : Nat} (hrank : m.state.rank = 0)
    (h : m.step place = (.proceed next, m')) :
    LineSupply.size m'.lines < LineSupply.size m.lines := by
  unfold step at h
  split at h
  case h_1 =>
    unfold headerStep at h
    split at h
    · cases h
    next m'' hfetch => rw [lines_classify h]; exact (size_fetch hfetch).1
    next m'' hfetch => exact absurd h (classify_ne_proceed rfl)
  case h_2 =>
    unfold windows31Step at h
    split at h
    · cases h
    · cases h
    next m'' hfetch =>
      split at h
      · rw [lines_windows31Assignment h]; exact (size_fetch hfetch).1
      · cases h; exact (size_fetch hfetch).1
  case h_3 =>
    unfold lineStartStep at h
    split at h
    · cases h
    · cases h
    next m'' hfetch => rw [lines_dispatch h]; exact (size_fetch hfetch).1
  all_goals simp_all [ImportState.rank]

/-- Every step that goes on comes closer to the end. -/
theorem remaining_step {m m' : Importer ρ σ κ} {place next : Nat}
    (h : m.step place = (.proceed next, m')) : m'.remaining < m.remaining := by
  cases hstate : m.state with
  | header | windows31Line | lineStart =>
      exact remaining_of_size (size_step (by rw [hstate]; rfl) h)
  | keyName =>
      simp only [step, hstate, keyNameStep] at h
      split at h
      · cases h; exact remaining_of_state .keyName .lineStart rfl hstate rfl (by decide)
      split at h
      · cases h; exact remaining_of_state .keyName .lineStart rfl hstate rfl (by decide)
      · cases h
        exact remaining_of_state .keyName .lineStart (lines_openKey m _) hstate rfl (by decide)
  | defaultName =>
      simp only [step, hstate, defaultNameStep] at h
      cases h
      exact remaining_of_state .defaultName .assignment rfl hstate rfl (by decide)
  | quotedName =>
      simp only [step, hstate, quotedNameStep] at h
      split at h
      · cases h; exact remaining_of_state .quotedName .lineStart rfl hstate rfl (by decide)
      · cases h; exact remaining_of_state .quotedName .assignment rfl hstate rfl (by decide)
  | assignment =>
      simp only [step, hstate, assignmentStep] at h
      split at h
      · cases h; exact remaining_of_state .assignment .lineStart rfl hstate rfl (by decide)
      split at h
      · cases h; exact remaining_of_state .assignment .lineStart rfl hstate rfl (by decide)
      · cases h; exact remaining_of_state .assignment .typeTag rfl hstate rfl (by decide)
  | typeTag =>
      simp only [step, hstate, typeTagStep] at h
      split at h
      · cases h; exact remaining_of_state .typeTag .lineStart rfl hstate rfl (by decide)
      next tag payload htag =>
        cases h
        have hrank := rank_payloadState tag.payload
        exact remaining_of_state .typeTag _ rfl hstate rfl (by rw [hrank]; decide)
  | stringPayload =>
      simp only [step, hstate, stringStep] at h
      split at h
      · cases h; exact remaining_of_state .stringPayload .lineStart rfl hstate rfl (by decide)
      split at h
      · cases h; exact remaining_of_state .stringPayload .writing rfl hstate rfl (by decide)
      · cases h; exact remaining_of_state .stringPayload .lineStart rfl hstate rfl (by decide)
  | dwordPayload =>
      simp only [step, hstate, dwordStep] at h
      split at h
      · cases h; exact remaining_of_state .dwordPayload .lineStart rfl hstate rfl (by decide)
      · cases h; exact remaining_of_state .dwordPayload .writing rfl hstate rfl (by decide)
  | hexPayload =>
      simp only [step, hstate, hexStep] at h
      have hbound := size_continueList h
      have hrank : m.state.rank = 2 := by rw [hstate]; rfl
      unfold remaining
      omega
  | writing =>
      have hlines := lines_setStaged m
      simp only [step, hstate, writingStep] at h
      split at h
      · cases h; exact remaining_of_state .writing .windows31Line hlines hstate rfl (by decide)
      · cases h; exact remaining_of_state .writing .lineStart hlines hstate rfl (by decide)

end Importer

end RegistryText
