import RegistryText.Proofs.Store.Denied
import RegistryText.Proofs.Store.Paths
import RegistryText.Proofs.Text.AsciiCase

/-!
# What a slot says of its key

A slot is the lower case of a canonical path.  It can be read back: **its pieces between
backslashes are the lower case of the root's name and of each component**
(`piecesAt_slotOf`), since lower case neither adds a backslash nor takes one away.  Hence two
keys share a slot only if they have the same root and the same components up to case
(`slotOf_canonicalPath_inj`), and a slot covers another one only if its components stand at
the beginning of the other's (`slotCovers_canonicalPath_iff`).

A canonical path is also a path as any other, and **it is resolved to the key that it was made
for** (`slotOfPath?_canonicalPath`).
-/

namespace RegistryText

/-! ### Extended paths -/

/-- Without components a path is not extended. -/
theorem extendPath_nil (path : Text) : extendPath path [] = path := by
  simp [extendPath]

/-- Behind its first backslash an extended path is the first component, extended. -/
theorem extendPath_cons_eq (path component : Text) (components : List Text) :
    extendPath path (component :: components) =
      path ++ '\\' :: extendPath component components := by
  simp [extendPath]

/-- Components are put behind a path one after another. -/
theorem extendPath_append (path : Text) (components more : List Text) :
    extendPath path (components ++ more) = extendPath (extendPath path components) more := by
  simp [extendPath]

/-- **The pieces of an extended path are what it is made up of.** -/
theorem piecesAt_extendPath {path : Text} {components : List Text} (hpath : '\\' ∉ path)
    (h : ∀ c ∈ components, '\\' ∉ c) :
    Text.piecesAt '\\' (extendPath path components) = path :: components := by
  induction components generalizing path with
  | nil => rw [extendPath_nil, Text.piecesAt_of_not_mem hpath]
  | cons component components ih =>
      obtain ⟨hcomponent, hrest⟩ := List.forall_mem_cons.mp h
      rw [extendPath_cons_eq, Text.piecesAt_append, Text.piecesAt_of_not_mem hpath,
        ih hcomponent hrest]
      rfl

/-- The components of an extended path are those it was made of. -/
theorem pathComponents_extendPath {component : Text} {components : List Text}
    (hcomponent : IsComponent component) (h : ∀ c ∈ components, IsComponent c) :
    pathComponents (extendPath component components) = component :: components := by
  have hall : ∀ c ∈ component :: components, IsComponent c := List.forall_mem_cons.mpr ⟨hcomponent, h⟩
  have hpieces := piecesAt_extendPath hcomponent.2 fun c hc => (h c hc).2
  rw [pathComponents, hpieces]
  apply List.filter_eq_self.mpr
  intro c hc
  simpa using (hall c hc).1

/-! ### Slots -/

/-- The components of a path below a root, in lower case. -/
def foldedComponents (path : Text) : List Text :=
  (pathComponents path).map Text.lowerCase

/-- No component holds a separator. -/
theorem backslash_not_mem_foldedComponents (path : Text) :
    ∀ c ∈ foldedComponents path, '\\' ∉ c := by
  intro folded hfolded
  obtain ⟨component, hcomponent, rfl⟩ := List.mem_map.mp hfolded
  exact Text.backslash_not_mem_lowerCase (isComponent_of_mem hcomponent).2

/-- A root is found by its name. -/
theorem RootKey.find?_name (root : RootKey) :
    RootKey.all.find? (·.isNamed root.name) = some root := by
  cases root <;> decide

/-- The names of roots are ASCII, and differ up to case. -/
theorem RootKey.lowerCase_name_inj {root root' : RootKey}
    (h : root.name.lowerCase = root'.name.lowerCase) : root = root' := by
  have hascii : ∀ root : RootKey, root.name.lowerCase = root.name.map Text.asciiLower := by
    intro root
    have hall : (root.name.all fun c => decide (c.toNat < 0x80)) = true := by
      cases root <;> decide
    have hsmall : ∀ c ∈ root.name, c.toNat < 0x80 := by simpa using hall
    exact (Text.hasAsciiCase_of_ascii hsmall).lowerCase_eq
  have hfind := root.find?_name
  have hfind' := root'.find?_name
  rw [hascii, hascii] at h
  simp only [RootKey.isNamed, Text.sameIgnoringAsciiCase, h] at hfind hfind'
  exact Option.some.inj (hfind.symm.trans hfind')

/-- The slot of an extended path is made up of the lower cases of its parts. -/
theorem slotOf_extendPath (path : Text) (components : List Text) :
    slotOf (extendPath path components) =
      extendPath path.lowerCase (components.map Text.lowerCase) := by
  induction components generalizing path with
  | nil => rw [extendPath_nil, List.map_nil, extendPath_nil, slotOf]
  | cons component components ih =>
      have hrest := ih component
      rw [slotOf] at hrest
      rw [extendPath_cons_eq, slotOf, Text.lowerCase_append, hrest, List.map_cons,
        extendPath_cons_eq]

/-- The slots down to a key are made up of the lower cases of its components. -/
theorem map_slotOf_pathsDown (path : Text) (components : List Text) :
    (pathsDown path components).map slotOf =
      pathsDown path.lowerCase (components.map Text.lowerCase) := by
  induction components generalizing path with
  | nil => rfl
  | cons component components ih =>
      have hstep := slotOf_extendPath path [component]
      rw [slotOf] at hstep
      calc (pathsDown path (component :: components)).map slotOf
          = slotOf path :: (pathsDown (extendPath path [component]) components).map slotOf := rfl
        _ = slotOf path :: pathsDown (extendPath path.lowerCase [component.lowerCase])
              (components.map Text.lowerCase) := by
            rw [ih, hstep]
            rfl
        _ = pathsDown path.lowerCase ((component :: components).map Text.lowerCase) := rfl

/-- The slot of a key is made of its root and its components, in small letters. -/
theorem slotOf_canonicalPath (root : RootKey) (path : Text) :
    slotOf (canonicalPath root path) = extendPath root.name.lowerCase (foldedComponents path) :=
  slotOf_extendPath _ _

/-- **The pieces of a slot are the root and the components, in lower case.** -/
theorem piecesAt_slotOf (root : RootKey) (path : Text) :
    Text.piecesAt '\\' (slotOf (canonicalPath root path)) =
      root.name.lowerCase :: foldedComponents path := by
  have hname : '\\' ∉ root.name.lowerCase :=
    Text.backslash_not_mem_lowerCase root.backslash_not_mem_name
  rw [slotOf_canonicalPath]
  exact piecesAt_extendPath hname (backslash_not_mem_foldedComponents path)

/-- **Keys share a slot only if they have the same root and the same components up to
case.** -/
theorem slotOf_canonicalPath_inj {root root' : RootKey} {path path' : Text} :
    slotOf (canonicalPath root path) = slotOf (canonicalPath root' path') ↔
      root = root' ∧ foldedComponents path = foldedComponents path' := by
  constructor
  · intro h
    have hpieces := congrArg (Text.piecesAt '\\') h
    rw [piecesAt_slotOf, piecesAt_slotOf] at hpieces
    obtain ⟨hroot, hcomponents⟩ := List.cons_eq_cons.mp hpieces
    exact ⟨RootKey.lowerCase_name_inj hroot, hcomponents⟩
  · intro h
    obtain ⟨rfl, hcomponents⟩ := h
    rw [slotOf_canonicalPath, slotOf_canonicalPath, hcomponents]

/-- **A slot covers those of the keys whose components begin with its own.** -/
theorem slotCovers_canonicalPath_iff {root root' : RootKey} {above path : Text} :
    slotCovers (slotOf (canonicalPath root above)) (slotOf (canonicalPath root' path)) = true ↔
      root = root' ∧ foldedComponents above <+: foldedComponents path := by
  rw [slotCovers_iff]
  constructor
  · intro h
    rcases h with hsame | ⟨below, hbelow⟩
    · obtain ⟨hroot, hcomponents⟩ := slotOf_canonicalPath_inj.mp hsame.symm
      rw [hcomponents]
      exact ⟨hroot, List.prefix_refl _⟩
    · have hpieces := congrArg (Text.piecesAt '\\') hbelow
      rw [Text.piecesAt_append, piecesAt_slotOf, piecesAt_slotOf, List.cons_append] at hpieces
      obtain ⟨hroot, hcomponents⟩ := List.cons_eq_cons.mp hpieces
      exact ⟨RootKey.lowerCase_name_inj hroot.symm, _, hcomponents.symm⟩
  · intro h
    obtain ⟨rfl, more, hmore⟩ := h
    rw [slotOf_canonicalPath, slotOf_canonicalPath, ← hmore, extendPath_append]
    cases more with
    | nil => exact Or.inl (extendPath_nil _)
    | cons component more => exact Or.inr ⟨_, extendPath_cons_eq _ _ _⟩

/-! ### Canonical paths as paths -/

/-- The name of a root is a path with nothing below the root. -/
theorem RootKey.split?_name (root : RootKey) : RootKey.split? root.name = some (root, []) := by
  cases root <;> decide

/-- Behind the name of a root stands the path below it. -/
theorem RootKey.split?_append (root : RootKey) (below : Text) :
    RootKey.split? (root.name ++ '\\' :: below) = some (root, below) := by
  have hname : ∀ c ∈ root.name, decide (c ≠ '\\') = true := by
    intro c hc
    have hne : c ≠ '\\' := fun heq => root.backslash_not_mem_name (heq ▸ hc)
    simpa using hne
  rw [RootKey.split?, List.takeWhile_append_of_pos hname, List.dropWhile_append_of_pos hname]
  simp [root.find?_name]

/-- **A path of a root and components is resolved to them.** -/
theorem split?_extendPath (root : RootKey) {components : List Text}
    (h : ∀ c ∈ components, IsComponent c) :
    ∃ below, RootKey.split? (extendPath root.name components) = some (root, below) ∧
      pathComponents below = components := by
  cases components with
  | nil =>
      rw [extendPath_nil]
      exact ⟨[], root.split?_name, rfl⟩
  | cons component components =>
      obtain ⟨hcomponent, hrest⟩ := List.forall_mem_cons.mp h
      rw [extendPath_cons_eq]
      exact ⟨_, root.split?_append _, pathComponents_extendPath hcomponent hrest⟩

/-- A canonical path is resolved to the root and the components that it was made of. -/
theorem split?_canonicalPath (root : RootKey) (path : Text) :
    ∃ below, RootKey.split? (canonicalPath root path) = some (root, below) ∧
      pathComponents below = pathComponents path :=
  split?_extendPath root fun _ hc => isComponent_of_mem hc

/-- The slot of a path is the one of its root and of what is below it. -/
theorem slotOfPath?_eq {path : Text} {root : RootKey} {below : Text}
    (h : RootKey.split? path = some (root, below)) :
    slotOfPath? path = some (slotOf (canonicalPath root below)) := by
  rw [slotOfPath?, h]
  rfl

/-- Such a path is one of the key whose canonical path it is. -/
theorem slotOfPath?_extendPath (root : RootKey) {components : List Text}
    (h : ∀ c ∈ components, IsComponent c) :
    slotOfPath? (extendPath root.name components) =
      some (slotOf (extendPath root.name components)) := by
  obtain ⟨below, hsplit, hcomponents⟩ := split?_extendPath root h
  rw [slotOfPath?_eq hsplit, canonicalPath, hcomponents]

/-- The path of a key has the slot of the key. -/
theorem slotOfPath?_canonicalPath (root : RootKey) (path : Text) :
    slotOfPath? (canonicalPath root path) = some (slotOf (canonicalPath root path)) :=
  slotOfPath?_extendPath root fun _ hc => isComponent_of_mem hc

end RegistryText
