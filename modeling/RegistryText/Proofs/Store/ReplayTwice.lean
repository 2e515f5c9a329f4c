import RegistryText.Proofs.Store.Calls
import RegistryText.Proofs.Store.Replay
import RegistryText.Proofs.Store.Representation

/-!
# Logs replayed twice

A log may set the same value many times, under names that differ in case.  Of the values that it
leaves in a key each is as the last write of its name has left it, and each name that is written
has a value.  So when the writes are made once more, they find a value for each name, and leave
each as it was: **setting values once more changes nothing** (`setAll_setAll`).

A log of whole blocks opens every key before it writes to it.  Hence the second replay of such a
log finds the keys of the first one and makes the same writes to them, and **replaying the log
twice leaves the keys of replaying it once** (`KeyMap.replay_twice`).
-/

namespace RegistryText

/-! ### Values -/

/-- Names are the same if they are equal in lower case. -/
theorem sameValueName_iff {a b : Option Text} : sameValueName a b = true ↔
    a.map (List.map Text.asciiLower) = b.map (List.map Text.asciiLower) := by
  cases a <;> cases b <;> simp [sameValueName, Text.sameIgnoringAsciiCase]

/-- A value has the name it has. -/
theorem sameValueName_self (name : Option Text) : sameValueName name name = true :=
  sameValueName_iff.mpr rfl

/-- Two names are the same in either order. -/
theorem sameValueName_comm (a b : Option Text) : sameValueName a b = sameValueName b a := by
  rw [Bool.eq_iff_iff, sameValueName_iff, sameValueName_iff]
  exact eq_comm

/-- Names that are the same are those of the same values. -/
theorem sameValueName_congr {name other : Option Text} (h : sameValueName name other = true)
    (a : Option Text) : sameValueName a name = sameValueName a other := by
  rw [Bool.eq_iff_iff, sameValueName_iff, sameValueName_iff, sameValueName_iff.mp h]

/-- Set values, in order. -/
def setAll (writes : List KeyWrite) (values : List StoredValue) : List StoredValue :=
  writes.foldl (fun values w => setStoredValue w.name w.type w.data values) values

/-- Writes are made in order. -/
theorem setAll_append (writes more : List KeyWrite) (values : List StoredValue) :
    setAll (writes ++ more) values = setAll more (setAll writes values) :=
  List.foldl_append

/-- What a write makes of a value: nothing, unless the name is the same. -/
def KeyWrite.settle (w : KeyWrite) (v : StoredValue) : StoredValue :=
  if sameValueName v.name w.name then { v with type := w.type, data := w.data } else v

/-- What writes make of a value, in order. -/
def settleAll (writes : List KeyWrite) (v : StoredValue) : StoredValue :=
  writes.foldl (fun v w => w.settle v) v

/-- The last write settles a value last. -/
theorem settleAll_concat (writes : List KeyWrite) (w : KeyWrite) (v : StoredValue) :
    settleAll (writes ++ [w]) v = w.settle (settleAll writes v) := by
  simp [settleAll]

/-- A write never renames a value. -/
@[simp] theorem KeyWrite.name_settle (w : KeyWrite) (v : StoredValue) :
    (w.settle v).name = v.name := by
  unfold settle
  split <;> rfl

/-- Nor do many. -/
@[simp] theorem name_settleAll (writes : List KeyWrite) (v : StoredValue) :
    (settleAll writes v).name = v.name := by
  induction writes generalizing v with
  | nil => rfl
  | cons w writes ih =>
      have hrest : settleAll (w :: writes) v = settleAll writes (w.settle v) := rfl
      rw [hrest, ih, w.name_settle]

/-- A write decides a value of its name, whatever the value was. -/
theorem KeyWrite.settle_eq {w : KeyWrite} {v : StoredValue}
    (h : sameValueName v.name w.name = true) : w.settle v = ⟨v.name, w.type, w.data⟩ :=
  if_pos h

/-- No two of the values have the same name. -/
def DistinctNames (values : List StoredValue) : Prop :=
  values.Pairwise fun v v' => sameValueName v.name v'.name = false

/-- One of the values has the name. -/
def HasName (values : List StoredValue) (name : Option Text) : Prop :=
  ∃ v ∈ values, sameValueName v.name name = true

/-- A value whose name is there is overwritten in its place. -/
theorem setStoredValue_of_hasName {values : List StoredValue} {w : KeyWrite}
    (hdistinct : DistinctNames values) (h : HasName values w.name) :
    setStoredValue w.name w.type w.data values = values.map w.settle := by
  induction values with
  | nil =>
      obtain ⟨v, hv, -⟩ := h
      cases hv
  | cons first rest ih =>
      obtain ⟨hfirst, hrest⟩ := List.pairwise_cons.mp hdistinct
      rw [setStoredValue, List.map_cons]
      by_cases hsame : sameValueName first.name w.name = true
      · -- no other value has the name, so the write leaves all others alone
        have hothers : ∀ v ∈ rest, w.settle v = v := by
          intro v hv
          refine if_neg fun hname => ?_
          rw [← sameValueName_congr hname, hfirst v hv] at hsame
          cases hsame
        rw [if_pos hsame, KeyWrite.settle_eq hsame, List.map_congr_left hothers, List.map_id']
      · have hlater : HasName rest w.name := by
          obtain ⟨v, hv, hname⟩ := h
          rcases List.mem_cons.mp hv with rfl | hv
          · exact absurd hname hsame
          · exact ⟨v, hv, hname⟩
        rw [if_neg hsame, ih hrest hlater, KeyWrite.settle, if_neg hsame]

/-- A value whose name is not there is added at the end. -/
theorem setStoredValue_of_not_hasName {values : List StoredValue} {w : KeyWrite}
    (h : ¬HasName values w.name) :
    setStoredValue w.name w.type w.data values = values ++ [⟨w.name, w.type, w.data⟩] := by
  induction values with
  | nil => rfl
  | cons first rest ih =>
      have hfirst : ¬sameValueName first.name w.name = true := fun hname =>
        h ⟨first, List.mem_cons_self, hname⟩
      have hrest : ¬HasName rest w.name := fun ⟨v, hv, hname⟩ =>
        h ⟨v, List.mem_cons_of_mem _ hv, hname⟩
      rw [setStoredValue, if_neg hfirst, ih hrest, List.cons_append]

/-- When all names are there, each value becomes what the writes make of it. -/
theorem setAll_of_hasName {values : List StoredValue} {writes : List KeyWrite}
    (hdistinct : DistinctNames values) (h : ∀ w ∈ writes, HasName values w.name) :
    setAll writes values = values.map (settleAll writes) := by
  induction writes generalizing values with
  | nil => exact (List.map_id values).symm
  | cons w writes ih =>
      have hset := setStoredValue_of_hasName hdistinct (h w List.mem_cons_self)
      have hdistinct' : DistinctNames (values.map w.settle) := by
        rw [← hset]
        exact pairwise_setStoredValue hdistinct
      have hnames : ∀ w' ∈ writes, HasName (values.map w.settle) w'.name := by
        intro w' hw'
        obtain ⟨v, hv, hname⟩ := h w' (List.mem_cons_of_mem _ hw')
        exact ⟨w.settle v, List.mem_map_of_mem hv, by rwa [w.name_settle]⟩
      calc setAll (w :: writes) values
          = setAll writes (values.map w.settle) := by rw [← hset]; rfl
        _ = (values.map w.settle).map (settleAll writes) := ih hdistinct' hnames
        _ = values.map (settleAll (w :: writes)) := List.map_map

/-- The values are what writes have left: each name is there once, and each value is as the last
write of its name has left it. -/
structure SettledBy (writes : List KeyWrite) (values : List StoredValue) : Prop where
  distinct : DistinctNames values
  named : ∀ w ∈ writes, HasName values w.name
  settled : ∀ v ∈ values, settleAll writes v = v

/-- One more write. -/
theorem SettledBy.concat {writes : List KeyWrite} {values : List StoredValue}
    (h : SettledBy writes values) (w : KeyWrite) :
    SettledBy (writes ++ [w]) (setStoredValue w.name w.type w.data values) := by
  have hdistinct : DistinctNames (setStoredValue w.name w.type w.data values) :=
    pairwise_setStoredValue h.distinct
  by_cases hname : HasName values w.name
  · rw [setStoredValue_of_hasName h.distinct hname] at hdistinct ⊢
    have hkeeps : ∀ {name : Option Text}, HasName values name →
        HasName (values.map w.settle) name := fun ⟨v, hv, hsame⟩ =>
      ⟨w.settle v, List.mem_map_of_mem hv, by rwa [w.name_settle]⟩
    refine ⟨hdistinct, ?_, ?_⟩
    · intro w' hw'
      rcases List.mem_append.mp hw' with hw' | hw'
      · exact hkeeps (h.named w' hw')
      · obtain rfl := List.mem_singleton.mp hw'
        exact hkeeps hname
    · intro v' hv'
      obtain ⟨v, hv, rfl⟩ := List.mem_map.mp hv'
      rw [settleAll_concat]
      by_cases hsame : sameValueName v.name w.name = true
      · rw [KeyWrite.settle_eq hsame, KeyWrite.settle_eq (by simpa using hsame), name_settleAll]
      · have hleft : w.settle v = v := if_neg hsame
        rw [hleft, h.settled v hv, hleft]
  · rw [setStoredValue_of_not_hasName hname] at hdistinct ⊢
    have hadded : sameValueName w.name w.name = true := sameValueName_self w.name
    refine ⟨hdistinct, ?_, ?_⟩
    · intro w' hw'
      rcases List.mem_append.mp hw' with hw' | hw'
      · obtain ⟨v, hv, hsame⟩ := h.named w' hw'
        exact ⟨v, List.mem_append_left _ hv, hsame⟩
      · obtain rfl := List.mem_singleton.mp hw'
        exact ⟨_, List.mem_append_right _ List.mem_cons_self, hadded⟩
    · intro v hv
      rw [settleAll_concat]
      rcases List.mem_append.mp hv with hv | hv
      · have hleft : w.settle v = v := if_neg fun hsame => hname ⟨v, hv, hsame⟩
        rw [h.settled v hv, hleft]
      · obtain rfl := List.mem_singleton.mp hv
        rw [KeyWrite.settle_eq (by simpa using hadded), name_settleAll]

/-- More writes. -/
theorem SettledBy.append {writes : List KeyWrite} {values : List StoredValue}
    (h : SettledBy writes values) (more : List KeyWrite) :
    SettledBy (writes ++ more) (setAll more values) := by
  induction more generalizing writes values with
  | nil =>
      rw [List.append_nil]
      exact h
  | cons w more ih =>
      rw [List.append_cons]
      exact ih (h.concat w)

/-- **Setting values once more changes nothing**, however often a name is written. -/
theorem setAll_setAll (writes : List KeyWrite) :
    setAll writes (setAll writes []) = setAll writes [] := by
  have hnone : SettledBy [] [] := ⟨List.Pairwise.nil, by simp, by simp⟩
  have h : SettledBy writes (setAll writes []) := hnone.append writes
  rw [setAll_of_hasName h.distinct h.named, List.map_congr_left h.settled, List.map_id']

/-! ### Keys -/

/-- The write of a call, if it is one to the key in a slot. -/
def StoreOp.writeAt? (slot : Text) : StoreOp → Option KeyWrite
  | setValue path name type data =>
      if slot = path.lowerCase then some ⟨name, type, data⟩ else none
  | openKey _ | closeKey _ => none

namespace KeyMap

/-- The writes of a log to the key in a slot. -/
def writesAt (slot : Text) (log : List StoreOp) : List KeyWrite :=
  log.filterMap (StoreOp.writeAt? slot)

variable {m m' : KeyMap} {slot : Text}

/-- What becomes of a slot depends on the key in it alone. -/
theorem perform_congr (h : m slot = m' slot) (op : StoreOp) :
    m.perform op slot = m'.perform op slot := by
  cases op with
  | closeKey path => exact h
  | setValue path name type data => simp only [perform, h]
  | openKey path =>
      simp only [perform]
      induction Text.prefixesAt '\\' path generalizing m m' with
      | nil => exact h
      | cons p paths ih =>
          refine ih ?_
          simp only [create, h]

/-- So it is with a whole log. -/
theorem foldl_perform_congr (h : m slot = m' slot) (log : List StoreOp) :
    log.foldl perform m slot = log.foldl perform m' slot := by
  induction log generalizing m m' with
  | nil => exact h
  | cons op log ih => exact ih (perform_congr h op)

/-- A key that is there is not created again. -/
theorem foldl_create_of_some {key : StoredKey} (h : m slot = some key) (paths : List Text) :
    paths.foldl create m slot = some key := by
  induction paths generalizing m with
  | nil => exact h
  | cons path paths ih => exact ih (by simp [create, h])

/-- A key that is there keeps its path, and only writes change its values. -/
theorem perform_of_some {key : StoredKey} (h : m slot = some key) (op : StoreOp) :
    m.perform op slot =
      some { key with values := setAll (writesAt slot [op]) key.values } := by
  cases op with
  | closeKey path => exact h
  | setValue path name type data =>
      by_cases hslot : slot = path.lowerCase
      · simp [perform, writesAt, StoreOp.writeAt?, setAll, overwrite_eq, ← hslot, h]
      · simp [perform, writesAt, StoreOp.writeAt?, setAll, hslot, h]
  | openKey path =>
      exact foldl_create_of_some h _

/-- The writes of a log are those of its parts. -/
theorem writesAt_append (slot : Text) (log more : List StoreOp) :
    writesAt slot (log ++ more) = writesAt slot log ++ writesAt slot more :=
  List.filterMap_append

/-- A log makes all its writes to a key that is there. -/
theorem foldl_perform_of_some {key : StoredKey} (h : m slot = some key) (log : List StoreOp) :
    log.foldl perform m slot =
      some { key with values := setAll (writesAt slot log) key.values } := by
  induction log generalizing m key with
  | nil => exact h
  | cons op log ih =>
      have hwrites : writesAt slot (op :: log) = writesAt slot [op] ++ writesAt slot log :=
        writesAt_append slot [op] log
      rw [List.foldl_cons, ih (perform_of_some h op), hwrites, setAll_append]

/-- The paths that are created in a slot without a key. -/
theorem foldl_create_of_none (h : m slot = none) (paths : List Text) :
    (paths.foldl create m slot = none ∧ ∀ path ∈ paths, slot ≠ path.lowerCase) ∨
      ∃ path, paths.foldl create m slot = some ⟨path, []⟩ := by
  induction paths generalizing m with
  | nil => exact Or.inl ⟨h, by simp⟩
  | cons path paths ih =>
      by_cases hslot : slot = path.lowerCase
      · have hcreated : m.create path slot = some ⟨path, []⟩ := by
          simp [create, ← hslot, h]
        have hkept := foldl_create_of_some hcreated paths
        exact Or.inr ⟨path, hkept⟩
      · have hleft : m.create path slot = none := by simp [create, hslot, h]
        rcases ih hleft with ⟨hnone, hothers⟩ | hsome
        · exact Or.inl ⟨hnone, List.forall_mem_cons.mpr ⟨hslot, hothers⟩⟩
        · exact Or.inr hsome

/-- Without a key that is opened a slot without a key stays so. -/
theorem foldl_perform_of_none (h : m slot = none) {log : List StoreOp}
    (hlog : ∀ op ∈ log, op.isOpenKey = false) : log.foldl perform m slot = none := by
  induction log generalizing m with
  | nil => exact h
  | cons op log ih =>
      obtain ⟨hfirst, hrest⟩ := List.forall_mem_cons.mp hlog
      refine ih ?_ hrest
      cases op with
      | openKey path => cases hfirst
      | closeKey path => exact h
      | setValue path name type data => simp [perform, h]

/-- The last of the prefixes of a path is the path. -/
theorem mem_prefixesAt (separator : Char) (path : Text) :
    path ∈ Text.prefixesAt separator path := by
  induction path with
  | nil => exact List.mem_cons_self
  | cons c path ih =>
      exact List.mem_append_right _ (List.mem_map_of_mem ih)

/-- A block creates the key of a slot before it writes to it, if it writes to it at all. -/
theorem foldl_perform_block (h : m slot = none) (block : KeyBlock) :
    (block.ops.foldl perform m slot = none ∧ writesAt slot block.ops = []) ∨
      ∃ path, block.ops.foldl perform m slot =
        some ⟨path, setAll (writesAt slot block.ops) []⟩ := by
  obtain ⟨path, writes⟩ := block
  rcases foldl_create_of_none h (Text.prefixesAt '\\' path) with
    ⟨hnone, hothers⟩ | ⟨created, hsome⟩
  · left
    have hslot : slot ≠ path.lowerCase := hothers path (mem_prefixesAt '\\' path)
    have hbehind : ∀ op ∈ writes.map (KeyWrite.op path) ++ [.closeKey path],
        op.isOpenKey = false ∧ op.writeAt? slot = none := by
      intro op hop
      rcases List.mem_append.mp hop with hop | hop
      · obtain ⟨w, -, rfl⟩ := List.mem_map.mp hop
        exact ⟨rfl, if_neg hslot⟩
      · obtain rfl := List.mem_singleton.mp hop
        exact ⟨rfl, rfl⟩
    refine ⟨foldl_perform_of_none (m := m.perform (.openKey path)) hnone fun op hop =>
      (hbehind op hop).1, ?_⟩
    exact List.filterMap_eq_nil_iff.mpr
      (List.forall_mem_cons.mpr ⟨rfl, fun op hop => (hbehind op hop).2⟩)
  · right
    refine ⟨created, ?_⟩
    exact foldl_perform_of_some (m := m.perform (.openKey path)) hsome _

/-- The values that blocks leave are those of their writes, by induction on the blocks. -/
theorem values_of_blocks (h : m slot = none) (blocks : List KeyBlock) {key : StoredKey}
    (hkey : (blocks.flatMap KeyBlock.ops).foldl perform m slot = some key) :
    key.values = setAll (writesAt slot (blocks.flatMap KeyBlock.ops)) [] := by
  induction blocks generalizing m with
  | nil => rw [List.flatMap_nil, List.foldl_nil, h] at hkey; cases hkey
  | cons block blocks ih =>
      rw [List.flatMap_cons, List.foldl_append] at hkey
      rw [List.flatMap_cons, writesAt_append, setAll_append]
      rcases foldl_perform_block h block with ⟨hnone, hwrites⟩ | ⟨path, hsome⟩
      · rw [hwrites]
        exact ih hnone hkey
      · rw [foldl_perform_of_some hsome] at hkey
        rw [← Option.some.inj hkey]

/-- **A log of blocks that is replayed twice leaves the keys of replaying it once.** -/
theorem replay_twice (blocks : List KeyBlock) :
    replay (blocks.flatMap KeyBlock.ops ++ blocks.flatMap KeyBlock.ops) =
      replay (blocks.flatMap KeyBlock.ops) := by
  funext slot
  rw [replay, List.foldl_append]
  cases hkey : replay (blocks.flatMap KeyBlock.ops) slot with
  | none =>
      have hempty : replay (blocks.flatMap KeyBlock.ops) slot = (fun _ => none : KeyMap) slot :=
        hkey
      exact (foldl_perform_congr hempty _).trans hkey
  | some key =>
      rw [← replay, foldl_perform_of_some hkey, values_of_blocks rfl blocks hkey, setAll_setAll,
        ← values_of_blocks rfl blocks hkey]

end KeyMap

end RegistryText
