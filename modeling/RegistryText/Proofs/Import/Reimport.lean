import RegistryText.Proofs.Import.Denied
import RegistryText.Proofs.Store.ReplayTwice

/-!
# Importing a file twice

An import does not look at the keys of its store: what it is answered depends on the denied keys
alone.  So a second import of the same file, into the store that the first one has left, **makes
the calls of the first one again and gives the same answer** (`lockstep_repeats`).

What a store in memory keeps through any import is that it logs whole blocks, and that the log is
a record of its keys (`keptByCalls_imported`).  Replaying blocks twice leaves the keys of
replaying them once, so **importing a file twice leaves the keys, their spellings and their values
as importing it once** (`importSource_twice`).
-/

namespace RegistryText

/-! ### What imports keep -/

/-- Imports have been made on a store that denies slots, and the last one holds a key: their
calls respect handles, and the log is a record of the keys. -/
structure Imported (slots : List Text) (store : MemoryStore) (held : Option KeyHandle) :
    Prop where
  denied : store.denied = slots
  recorded : IssuingStore.Recorded store
  issued : ∀ key ∈ held, key.IsIssued
  followed : ∃ calls, HeldAfter calls held ∧ store.Follows calls held

section Imported

variable {slots : List Text} {store store' : MemoryStore} {held : Option KeyHandle}

/-- A store without keys. -/
theorem imported_deny (denied : List Text) :
    Imported (slotsOf denied) (denied.foldl MemoryStore.deny {}) none where
  denied := by rw [MemoryStore.foldl_deny]; rfl
  recorded := by
    rw [MemoryStore.foldl_deny]
    exact ⟨List.Pairwise.nil, rfl, rfl⟩
  issued := by simp
  followed := ⟨[], .start, MemoryStore.follows_deny denied⟩

/-- Between imports the log lists whole blocks. -/
theorem Imported.exists_blocks (h : Imported slots store none) :
    ∃ blocks : List KeyBlock, store.log = blocks.flatMap KeyBlock.ops := by
  obtain ⟨calls, hheld, hfollows⟩ := h.followed
  rw [hfollows.log]
  exact hheld.exists_blocks

/-- Between imports no handle is open. -/
theorem Imported.serves (h : Imported slots store none) : store.Serves none := by
  obtain ⟨calls, -, hfollows⟩ := h.followed
  exact ⟨hfollows.opened, by simp⟩

/-- A call leaves the denied slots, and the log a record. -/
theorem Imported.serve (h : Imported slots store held) (request : StoreRequest)
    (hdeny : ∀ path, request ≠ .deny path) (hissued : ∀ key ∈ request.handle?, key.IsIssued) :
    (IssuingStore.serve ⟨store, []⟩ request).store.denied = slots ∧
      IssuingStore.Recorded (IssuingStore.serve ⟨store, []⟩ request).store :=
  ⟨(IssuingStore.denied_serve ⟨store, []⟩ hdeny).trans h.denied,
    IssuingStore.Recorded.serve (s := ⟨store, []⟩) h.recorded hissued⟩

theorem Imported.openKey (h : Imported slots store none) {root : RootKey} {path : Text}
    {answer : Except StoreError KeyHandle} (hopen : store.openKey root path = (answer, store')) :
    store'.denied = slots ∧ IssuingStore.Recorded store' := by
  have hserved := h.serve (.openKey root path) (by simp) (by simp [StoreRequest.handle?])
  rwa [IssuingStore.serve, hopen] at hserved

/-- **The calls of an import keep this.** -/
theorem keptByCalls_imported (slots : List Text) : KeptByCalls (Imported slots) where
  opened {store store' root path key} h hopen := by
    obtain ⟨calls, hheld, hfollows⟩ := h.followed
    obtain ⟨hdenied, hrecorded⟩ := h.openKey hopen
    refine ⟨hdenied, hrecorded, ?_, _, .opened hheld root path key, hfollows.openKey hopen⟩
    rintro _ ⟨⟩
    exact ⟨store, root, path, congrArg Prod.fst hopen⟩
  refused {store store' root path cause} h hopen := by
    obtain ⟨calls, hheld, hfollows⟩ := h.followed
    obtain ⟨hdenied, hrecorded⟩ := h.openKey hopen
    exact ⟨hdenied, hrecorded, by simp, _, .refused hheld root path cause,
      hfollows.refused hopen⟩
  closed {store key} h := by
    obtain ⟨calls, hheld, hfollows⟩ := h.followed
    obtain ⟨hdenied, hrecorded⟩ := h.serve (.closeKey key) (by simp) h.issued
    exact ⟨hdenied, hrecorded, by simp, _, .closed hheld, hfollows.closeKey⟩
  set {store key} name type data h := by
    obtain ⟨calls, hheld, hfollows⟩ := h.followed
    obtain ⟨hdenied, hrecorded⟩ := h.serve (.setValue key name type data) (by simp) h.issued
    exact ⟨hdenied, hrecorded, h.issued, _, .set hheld name type data _,
      hfollows.setValue name type data⟩

/-- **A log that is another one twice records the same keys.** -/
theorem Imported.table_of_twice (h : Imported slots store none) (h' : Imported slots store' none)
    (hlog : store'.log = store.log ++ store.log) : store'.table = store.table := by
  obtain ⟨blocks, hblocks⟩ := h.exists_blocks
  refine h'.recorded.sorted.ext h.recorded.sorted ?_
  calc store'.table.key?
      = KeyMap.replay (store.log ++ store.log) := by rw [h'.recorded.keys, hlog]
    _ = KeyMap.replay store.log := by rw [hblocks, KeyMap.replay_twice]
    _ = store.table.key? := h.recorded.keys.symm

end Imported

namespace MemoryStore

/-! ### The same calls on another store -/

/-- The second store has carried out some calls and then those of the first one. -/
structure Repeated (before : List StoreOp) (store store' : MemoryStore)
    (held held' : Option KeyHandle) : Prop where
  serves : store.Serves held
  serves' : store'.Serves held'
  denied : store'.denied = store.denied
  log : store'.log = before ++ store.log
  path : held'.map KeyHandle.path = held.map KeyHandle.path

variable {before : List StoreOp} {store store' : MemoryStore} {held held' : Option KeyHandle}

/-- A key that is held is held by both. -/
theorem Repeated.cases_held (h : Repeated before store store' held held') :
    held = none ∧ held' = none ∨
      ∃ key key', held = some key ∧ held' = some key' ∧ key'.path = key.path := by
  have hpath := h.path
  cases held <;> cases held' <;> simp_all

theorem Repeated.release (h : Repeated before store store' held held') :
    Repeated before (store.release held) (store'.release held') none none := by
  rcases h.cases_held with ⟨rfl, rfl⟩ | ⟨key, key', rfl, rfl, hpath⟩
  · exact h
  obtain ⟨hserves, hdenied, -, hlog⟩ := h.serves.closeKey
  obtain ⟨hserves', hdenied', -, hlog'⟩ := h.serves'.closeKey
  exact {
    serves := hserves
    serves' := hserves'
    denied := by rw [release, release, hdenied, hdenied', h.denied]
    log := by rw [release, release, hlog, hlog', h.log, hpath, List.append_assoc]
    path := rfl }

/-- Both open a key, or both refuse it for the same reason. -/
theorem Repeated.openKey (h : Repeated before store store' none none) (root : RootKey)
    (path : Text) :
    (∃ cause, store.openKey root path = (.error cause, store) ∧
      store'.openKey root path = (.error cause, store')) ∨
    ∃ key opened key' opened', store.openKey root path = (.ok key, opened) ∧
      store'.openKey root path = (.ok key', opened') ∧
      Repeated before opened opened' (some key) (some key') := by
  have hsame : store'.isDenied (slotOf (canonicalPath root path)) =
      store.isDenied (slotOf (canonicalPath root path)) := by
    rw [isDenied, isDenied, h.denied]
  cases hdenied : store.isDenied (slotOf (canonicalPath root path)) with
  | true =>
      rw [hdenied] at hsame
      exact Or.inl ⟨.backend (accessDenied (canonicalPath root path)),
        by rw [MemoryStore.openKey]; exact if_pos hdenied,
        by rw [MemoryStore.openKey]; exact if_pos hsame⟩
  | false =>
      rw [hdenied] at hsame
      obtain ⟨opened, hopen, hserves, hkept, -, hlog⟩ := h.serves.openKey hdenied
      obtain ⟨opened', hopen', hserves', hkept', -, hlog'⟩ := h.serves'.openKey hsame
      exact Or.inr ⟨_, opened, _, opened', hopen, hopen', {
        serves := hserves
        serves' := hserves'
        denied := by rw [hkept, hkept', h.denied]
        log := by rw [hlog, hlog', h.log, List.append_assoc]
        path := rfl }⟩

/-- Both set a value. -/
theorem Repeated.setValue {key key' : KeyHandle}
    (h : Repeated before store store' (some key) (some key')) (name : Option Text)
    (type : ValueType) (data : Bytes) :
    ∃ written written', store.setValue key name type data = (.ok (), written) ∧
      store'.setValue key' name type data = (.ok (), written') ∧
      Repeated before written written' (some key) (some key') := by
  have hpath : key'.path = key.path := Option.some.inj h.path
  obtain ⟨written, hset, hserves, hkept, -, hlog⟩ := h.serves.setValue name type data
  obtain ⟨written', hset', hserves', hkept', -, hlog'⟩ := h.serves'.setValue name type data
  exact ⟨written, written', hset, hset', {
    serves := hserves
    serves' := hserves'
    denied := by rw [hkept, hkept', h.denied]
    log := by rw [hlog, hlog', h.log, hpath, List.append_assoc]
    path := h.path }⟩

end MemoryStore

/-! ### The second import -/

namespace Importer

variable {ρ : Type}

/-- The second importer repeats the import of the first one, into a store on which some calls
have been made before. -/
structure Repeats (before : List StoreOp) (m n : Importer ρ MemoryStore KeyHandle) : Prop where
  lines : n.lines = m.lines
  state : n.state = m.state
  dialect : n.dialect = m.dialect
  report : n.report = m.report
  stores : MemoryStore.Repeated before m.store n.store m.key n.key

variable {before : List StoreOp} {m n : Importer ρ MemoryStore KeyHandle}

theorem Repeats.closeKey (h : Repeats before m n) : Repeats before m.closeKey n.closeKey := by
  rw [closeKey_eq_release, closeKey_eq_release]
  exact { h with stores := h.stores.release }

theorem Repeats.finish [LineSupply ρ] (h : Repeats before m n) :
    Repeats before m.finish n.finish := by
  have hclosed := h.closeKey
  exact { hclosed with lines := congrArg LineSupply.close hclosed.lines }

variable [LineSupply ρ]

theorem Repeats.note (h : Repeats before m n) (kinds : List DiagnosticKind) :
    Repeats before (m.note kinds) (n.note kinds) :=
  { h with report := by simp only [Importer.note, h.lines, h.report] }

/-- The same key is opened again, or refused again. -/
theorem Repeats.openKey (h : Repeats before m n) (path : Text) :
    Repeats before (m.openKey path).2 (n.openKey path).2 := by
  have hclosed := h.closeKey
  have hstores := hclosed.stores
  rw [show m.closeKey.key = none by rw [closeKey_eq_release],
    show n.closeKey.key = none by rw [closeKey_eq_release]] at hstores
  cases hsplit : RootKey.split? path with
  | none =>
      rw [openKey_of_unknownRoot m hsplit, openKey_of_unknownRoot n hsplit]
      exact hclosed.note _
  | some split =>
      obtain ⟨root, below⟩ := split
      rcases hstores.openKey root below with
        ⟨cause, hrefuse, hrefuse'⟩ | ⟨key, opened, key', opened', hopen, hopen', hstores'⟩
      · rw [openKey_eq_refused m hsplit hrefuse, openKey_eq_refused n hsplit hrefuse']
        exact hclosed.note _
      · rw [openKey_eq m hsplit hopen, openKey_eq n hsplit hopen']
        exact { hclosed with stores := hstores', report := by simp only [hclosed.report] }

/-- The same value is set again. -/
theorem Repeats.write (h : Repeats before m n) (w : KeyWrite) :
    Repeats before (m.write w) (n.write w) := by
  rcases h.stores.cases_held with ⟨hkey, hkey'⟩ | ⟨key, key', hkey, hkey', -⟩
  · simpa only [Importer.write, hkey, hkey'] using h
  have hstores := h.stores
  rw [hkey, hkey'] at hstores
  obtain ⟨written, written', hset, hset', hafter⟩ := hstores.setValue w.name w.type w.data
  have hcall : RegistryStore.setValue m.store key w.name w.type w.data = (.ok (), written) := hset
  have hcall' : RegistryStore.setValue n.store key' w.name w.type w.data =
      (.ok (), written') := hset'
  simp only [Importer.write, hkey, hkey', hcall, hcall']
  exact { h with stores := hafter, report := by simp only [h.report] }

/-- **The second import repeats the first one.** -/
theorem lockstep_repeats (before : List StoreOp) :
    Lockstep (fun _ => True) (Repeats before : Importer ρ MemoryStore KeyHandle → _ → Prop) where
  state h := h.state
  dialect h := h.dialect
  back h := h
  next h _ := by rw [h.lines]
  fetch {m n} h _ := by
    have hlines := h.lines
    unfold fetch
    rw [hlines]
    split <;> exact { h with lines := rfl, report := by simp only [h.report] }
  enter state h := { h with state := rfl }
  settled {m m' n n'} h hm hn := by
    obtain ⟨hlines, hstore, hkey, hstate, hdialect, hreport⟩ := anew_eq_iff.mp hm
    obtain ⟨hlines', hstore', hkey', hstate', hdialect', hreport'⟩ := anew_eq_iff.mp hn
    exact {
      lines := by rw [hlines, hlines', h.lines]
      state := by rw [hstate, hstate', h.state]
      dialect := by rw [hdialect, hdialect', h.dialect]
      report := by rw [hreport, hreport', h.report]
      stores := by rw [hstore, hstore', hkey, hkey']; exact h.stores }
  named d h := { h with dialect := rfl, report := by simp only [named, h.report] }
  note h _ := h.note _
  openKey path h := h.openKey path
  write w h := h.write w

/-- **A run on the store that another run has left repeats it**, and leaves the same keys. -/
theorem run_twice {slots : List Text} (h : Imported slots m.store none) (hlog : m.store.log = [])
    (hkey : m.key = none) (hheader : m.state = .header)
    (hn : n = m.mapStore fun _ => m.run.2.store) :
    n.run.1 = m.run.1 ∧ n.run.2.report = m.run.2.report ∧
      n.run.2.store.log = m.run.2.store.log ++ m.run.2.store.log ∧
      n.run.2.store.table = m.run.2.store.table := by
  have hfirst := (run_keeps (keptByCalls_imported slots) (hkey ▸ h)).1
  have hsecond : Imported slots n.run.2.store none := by
    refine (run_keeps (keptByCalls_imported slots) ?_).1
    subst hn
    show Imported slots m.run.2.store m.key
    rwa [hkey]
  have hrepeats : Repeats m.run.2.store.log m n := by
    subst hn
    refine ⟨rfl, rfl, rfl, rfl, ?_⟩
    show MemoryStore.Repeated m.run.2.store.log m.store m.run.2.store m.key m.key
    rw [hkey]
    exact {
      serves := h.serves
      serves' := hfirst.serves
      denied := by rw [hfirst.denied, h.denied]
      log := by rw [hlog, List.append_nil]
      path := rfl }
  obtain ⟨houtcome, hended⟩ := (lockstep_repeats m.run.2.store.log).run (fun _ => trivial)
    Repeats.finish hrepeats (Or.inl hheader)
  exact ⟨houtcome, hended.report, hended.stores.log,
    hfirst.table_of_twice hsecond hended.stores.log⟩

end Importer

/-- What an import answers and leaves can be seen of it. -/
theorem importSource_eq {σ κ : Type} [RegistryStore σ κ] (source : Source) (store : σ)
    (options : ImportOptions) : importSource source store options =
      match importView source store options with
      | .error e => (.error e, store)
      | .ok view => (view.outcome.map fun _ => view.report, view.store) := by
  rw [importSource, importView]
  cases Importer.ofSource (κ := κ) source store options with
  | error e => rfl
  | ok m =>
      rcases hrun : m.run with ⟨_ | _, ran⟩ <;>
        simp only [hrun, Except.map, Importer.view]

/-- **Importing a file once more changes nothing.**  Import a source into a store without keys,
whatever it denies, and then the same source, or another one of the same bytes, into the store
that is left.  The second import gives the answer of the first one, report and all, appends the
calls of the first one to the log, and leaves all keys and all their values as they were. -/
theorem importSource_twice {source source' : Source} (denied : List Text)
    (h : source' = source ∨ ∃ bytes, source.Delivers bytes ∧ source'.Delivers bytes)
    (options : ImportOptions) :
    let first := importSource source (denied.foldl MemoryStore.deny {}) options
    let second := importSource source' first.2 options
    second.1 = first.1 ∧ second.2.log = first.2.log ++ first.2.log ∧
      second.2.table = first.2.table := by
  intro first second
  have himported := imported_deny denied
  have hnone : (denied.foldl MemoryStore.deny {}).log = [] := by
    rw [MemoryStore.foldl_deny]
    rfl
  have hsame : importView source' first.2 options = importView source first.2 options := by
    rcases h with rfl | ⟨bytes, hdelivers, hdelivers'⟩
    · rfl
    · rw [importView_of_delivers hdelivers, importView_of_delivers hdelivers']
  have hfirst : first = _ := importSource_eq source (denied.foldl MemoryStore.deny {}) options
  have hsecond : second = _ := importSource_eq source' first.2 options
  have hmap := Importer.ofSource_mapStore (κ := KeyHandle) (fun _ : MemoryStore => first.2) source
    (denied.foldl MemoryStore.deny {}) options
  rw [hsame, importView, hmap] at hsecond
  rw [importView] at hfirst
  cases hm : Importer.ofSource (κ := KeyHandle) source (denied.foldl MemoryStore.deny {})
      options with
  | error e =>
      rw [hm] at hfirst hsecond
      rw [hsecond, hfirst]
      exact ⟨rfl, by simp [Except.map, hnone], rfl⟩
  | ok m =>
      rw [hm] at hfirst hsecond
      have hleft : first.2 = m.run.2.store := congrArg Prod.snd hfirst
      obtain ⟨hstore, hkey⟩ := Importer.fresh_ofSource hm
      have hheader : m.state = .header := by
        obtain ⟨_, _, _, rfl⟩ := Importer.exists_ofFirstBytes hm
        rfl
      obtain ⟨houtcome, hreport, hlog, htable⟩ :=
        Importer.run_twice (by rwa [hstore]) (by rw [hstore, hnone]) hkey hheader rfl
      rw [hsecond, hleft]
      refine ⟨?_, hlog, htable⟩
      rw [hfirst]
      simp only [Except.map, Importer.view, houtcome, hreport]

/-- A key and a value that come back in another spelling, a type that changes, and a denied key. -/
def respelledText : Text :=
  "REGEDIT4\n[HKEY_CURRENT_USER\\A]\n\"n\"=\"1\"\n\"m\"=dword:1\n\"N\"=dword:2\n".toList ++
    "[HKCU\\Denied]\n@=\"y\"\n[HKEY_CURRENT_USER\\Denied]\n[hkey_current_user\\a\\b]\n".toList ++
    "[HKEY_CURRENT_USER\\a]\n\"n\"=hex:03\n".toList

/-- It is read whole at first and then in pieces. -/
theorem importSource_twice_respelled :
    let first := importSource (.ofBytes (Utf8.encode respelledText))
      (["HKEY_CURRENT_USER\\denied".toList].foldl MemoryStore.deny {}) {}
    let second := importSource ⟨[.interruption, .data (Utf8.encode respelledText)], some 3⟩
      first.2 {}
    second.1 = first.1 ∧ second.2.log = first.2.log ++ first.2.log ∧
      second.2.table = first.2.table ∧ first.2.keys =
        [⟨"HKEY_CURRENT_USER".toList, []⟩,
          ⟨"HKEY_CURRENT_USER\\A".toList,
            [⟨some "n".toList, .binary, [3]⟩, ⟨some "m".toList, .dword, [1, 0, 0, 0]⟩]⟩,
          ⟨"HKEY_CURRENT_USER\\a\\b".toList, []⟩] := by
  have hpieces : ∀ bytes : Bytes, bytes ≠ [] →
      Source.Delivers ⟨[.interruption, .data bytes], some 3⟩ bytes := fun bytes hbytes =>
    ⟨.interruption (by simpa using Source.SegmentsDeliver.data hbytes .ended), by simp⟩
  obtain ⟨hanswer, hlog, htable⟩ := importSource_twice ["HKEY_CURRENT_USER\\denied".toList]
    (Or.inr ⟨_, Source.delivers_ofBytes (Utf8.encode respelledText),
      hpieces _ (by decide +kernel)⟩) {}
  exact ⟨hanswer, hlog, htable, by decide +kernel⟩

end RegistryText
