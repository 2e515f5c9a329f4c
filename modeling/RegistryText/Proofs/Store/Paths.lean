import RegistryText.Store.KeyPath
import RegistryText.Proofs.Text.LowerCase
import RegistryText.Proofs.Text.Order
import RegistryText.Proofs.Text.Pieces

/-!
# Canonical paths and their ancestors

A canonical path is the name of a root with components behind it, none of which is
empty or has a backslash in it.  Cutting it at a backslash is taking away components
(`ancestor_of_extendPath`), so what stands in front of a backslash is one of the paths
down to it.  The slot of a path cut there is a beginning of its slot, and **comes
before it** (`slotOf_ancestor_before`).
-/

namespace RegistryText

/-- A part of a path between backslashes, not empty. -/
def IsComponent (component : Text) : Prop :=
  component ≠ [] ∧ '\\' ∉ component

theorem isComponent_of_mem {component path : Text} (h : component ∈ pathComponents path) :
    IsComponent component := by
  obtain ⟨hpiece, hempty⟩ := List.mem_filter.mp h
  exact ⟨by simpa using hempty, Text.not_mem_of_mem_piecesAt hpiece⟩

theorem RootKey.backslash_not_mem_name (root : RootKey) : '\\' ∉ root.name := by
  cases root <;> decide

theorem extendPath_cons (path component : Text) (components : List Text) :
    extendPath path (component :: components) =
      extendPath (extendPath path [component]) components := by
  simp [extendPath]

/-- The paths down to a path are those with some of its components. -/
theorem mem_pathsDown {p path : Text} {components : List Text} :
    p ∈ pathsDown path components ↔
      ∃ taken left, components = taken ++ left ∧ p = extendPath path taken := by
  induction components generalizing path with
  | nil => simp [pathsDown, extendPath]
  | cons component components ih =>
      rw [pathsDown, List.mem_cons, ih]
      constructor
      · rintro (rfl | ⟨taken, left, rfl, rfl⟩)
        · exact ⟨[], component :: components, rfl, by simp [extendPath]⟩
        · exact ⟨component :: taken, left, rfl, (extendPath_cons ..).symm⟩
      · rintro ⟨taken, left, hcomponents, rfl⟩
        cases taken with
        | nil => exact Or.inl (by simp [extendPath])
        | cons first taken =>
            obtain ⟨rfl, rfl⟩ := List.cons_eq_cons.mp hcomponents
            exact Or.inr ⟨taken, left, rfl, extendPath_cons ..⟩

/-- A backslash in a text that begins with a text without one stands behind that. -/
theorem behind_of_append {front t above below : Text} (hfront : '\\' ∉ front)
    (h : front ++ t = above ++ '\\' :: below) :
    ∃ between, above = front ++ between ∧ t = between ++ '\\' :: below := by
  rcases List.append_eq_append_iff.mp h with ⟨between, habove, ht⟩ | ⟨excess, hexcess, hbelow⟩
  · exact ⟨between, habove, ht⟩
  · cases excess with
    | nil => exact ⟨[], by simpa using hexcess.symm, by simpa using hbelow.symm⟩
    | cons c excess =>
        obtain ⟨rfl, -⟩ := List.cons_eq_cons.mp hbelow
        exact absurd (by simp [hexcess]) hfront

/-- Components are cut at backslashes. -/
theorem taken_of_flatMap {components : List Text} (hcomponents : ∀ c ∈ components, IsComponent c)
    {above below : Text} (h : components.flatMap ('\\' :: ·) = above ++ '\\' :: below) :
    ∃ taken left, components = taken ++ left ∧ above = taken.flatMap ('\\' :: ·) := by
  induction components generalizing above with
  | nil => simp at h
  | cons component components ih =>
      cases above with
      | nil => exact ⟨[], component :: components, rfl, rfl⟩
      | cons c above =>
          obtain ⟨rfl, hrest⟩ := List.cons_eq_cons.mp h
          obtain ⟨between, rfl, hbetween⟩ :=
            behind_of_append (hcomponents component List.mem_cons_self).2 hrest
          obtain ⟨taken, left, rfl, rfl⟩ :=
            ih (fun c hc => hcomponents c (List.mem_cons_of_mem _ hc)) hbetween
          exact ⟨component :: taken, left, rfl, rfl⟩

/-- **What stands in front of a backslash of a canonical path is the path with fewer
components.** -/
theorem ancestor_of_extendPath {root : RootKey} {components : List Text}
    (hcomponents : ∀ c ∈ components, IsComponent c) {above below : Text}
    (h : extendPath root.name components = above ++ '\\' :: below) :
    ∃ taken left, components = taken ++ left ∧ above = extendPath root.name taken := by
  obtain ⟨between, rfl, hbetween⟩ := behind_of_append root.backslash_not_mem_name h
  obtain ⟨taken, left, hsplit, rfl⟩ := taken_of_flatMap hcomponents hbetween
  exact ⟨taken, left, hsplit, rfl⟩

/-- The slot of a path comes before those of the paths below it. -/
theorem slotOf_ancestor_before (above below : Text) :
    Text.before (slotOf above) (slotOf (above ++ '\\' :: below)) = true := by
  rw [slotOf, slotOf, Text.lowerCase_append]
  exact Text.before_append _ _ _

end RegistryText
