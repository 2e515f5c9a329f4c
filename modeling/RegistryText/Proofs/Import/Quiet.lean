import RegistryText.Import.Step

/-!
# Quiet steps

Most steps read on in the current line and touch nothing outside the importer:
they take no line and make no call of the store, so the key that is open stays
open.  What a step may leave as it was is the *outside* of the importer, its
lines, its store and its key.
-/

namespace RegistryText.Importer

variable {ρ σ κ : Type}

/-- What an importer is connected to: its lines, its store and its open key. -/
def outside (m : Importer ρ σ κ) : ρ × σ × Option κ :=
  (m.lines, m.store, m.key)

/-- An importer with the same outside has the same lines. -/
theorem lines_of_outside {m m' : Importer ρ σ κ} (h : m'.outside = m.outside) :
    m'.lines = m.lines :=
  congrArg Prod.fst h

/-- An importer with the same outside has the same store. -/
theorem store_of_outside {m m' : Importer ρ σ κ} (h : m'.outside = m.outside) :
    m'.store = m.store :=
  congrArg (fun outside => outside.2.1) h

/-- An importer with the same outside has the same key open. -/
theorem key_of_outside {m m' : Importer ρ σ κ} (h : m'.outside = m.outside) :
    m'.key = m.key :=
  congrArg (fun outside => outside.2.2) h

/-- A header line is judged without a look at the outside. -/
theorem outside_classify (m : Importer ρ σ κ) : m.classify.2.outside = m.outside := by
  simp only [classify]
  split
  · rfl
  · split <;> rfl

/-- No header line is a problem that is noted; one that is refused ends the import. -/
theorem diagnostics_classify (m : Importer ρ σ κ) :
    m.classify.2.report.diagnostics = m.report.diagnostics := by
  simp only [classify]
  split
  · rfl
  · split <;> rfl

/-- The first character of a line decides on the state alone. -/
theorem outside_dispatch (m : Importer ρ σ κ) : m.dispatch.2.outside = m.outside := by
  simp only [dispatch]
  split <;> rfl

variable [LineSupply ρ] (m : Importer ρ σ κ) (place : Nat)

/-- The name of a value is read without a look at the outside, whether it can be read or not. -/
theorem outside_quotedNameStep : (m.quotedNameStep place).2.outside = m.outside := by
  unfold quotedNameStep
  dsimp only
  split <;> rfl

/-- The equals sign is read, and the line is cut, within the importer. -/
theorem outside_assignmentStep : (m.assignmentStep place).2.outside = m.outside := by
  unfold assignmentStep
  split
  · rfl
  · dsimp only
    split <;> rfl

/-- A type tag decides how the payload is read, and touches nothing outside. -/
theorem outside_typeTagStep : (m.typeTagStep place).2.outside = m.outside := by
  unfold typeTagStep
  split <;> rfl

/-- A string is staged or given up; the store is called for it in a later step. -/
theorem outside_stringStep : (m.stringStep place).2.outside = m.outside := by
  unfold stringStep
  split
  · rfl
  · dsimp only
    split <;> rfl

/-- So is a doubleword. -/
theorem outside_dwordStep : (m.dwordStep place).2.outside = m.outside := by
  unfold dwordStep
  split <;> rfl

end RegistryText.Importer
