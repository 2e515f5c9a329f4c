import RegistryText.Proofs.Import.Diagnostics
import RegistryText.Proofs.Import.LineTurn

/-!
# Values go to the key that the file names

The import of a structured file is one turn after the other, and between them only the
open key is carried along.  So **every value goes to the key that the last opening line
in front of it has opened**, and to none if that attempt has failed or there was none
(`turns_of_structured`): malformed keys, deletions and comments make no difference, and
neither do lines that continue a list, whatever they look like.
-/

namespace RegistryText

namespace Importer

section Loop

variable {ρ : Type} [LineSupply ρ]

/-- A line is taken from in front of it, and it is the line of a turn. -/
def Dispatches (m : Importer ρ RecordedMemory KeyHandle) (t : LineTurn) : Prop :=
  m.state = .lineStart ∧ ∃ m', m.fetch = (.ok true, m') ∧ m'.line = t.line

/-- The turns of a loop that goes on to the end of the lines. -/
inductive Turns : Importer ρ RecordedMemory KeyHandle → Nat → List LineTurn →
    Importer ρ RecordedMemory KeyHandle → Prop
  | ended {m m' : Importer ρ RecordedMemory KeyHandle} {place : Nat}
      (hfetch : m.fetch = (.ok false, m')) (hturn : m.turn place = (.finished, m')) :
      Turns m place [] m'
  | last {m m' : Importer ρ RecordedMemory KeyHandle} {place : Nat} {t : LineTurn}
      (hline : m.Dispatches t) (hmade : Made t m m') (hturn : m.turn place = (.finished, m')) :
      Turns m place [t] m'
  | more {m m' final : Importer ρ RecordedMemory KeyHandle} {place next : Nat} {t : LineTurn}
      {turns : List LineTurn} (hline : m.Dispatches t) (hmade : Made t m m')
      (hturn : m.turn place = (.proceed next, m')) (rest : Turns m' next turns final) :
      Turns m place (t :: turns) final

variable {m m' m'' final : Importer ρ RecordedMemory KeyHandle} {place place' : Nat}
  {turns before after : List LineTurn} {t : LineTurn}

/-- A turn leaves the dialect as it is. -/
theorem dialect_turn (hstate : m.state = .lineStart) (hfront : m.front = .lineStart)
    (hfetch : m.fetch = (.ok true, m')) (place : Nat) : (m.turn place).2.dialect = m.dialect := by
  obtain ⟨-, -, -, hdialect, -, -⟩ := kept_of_fetch hfetch
  have hturn : settled (m.turn place) = _ := turn_line hstate hfront hfetch
  obtain ⟨-, -, -, -, -, hturned, -⟩ := settled_eq_iff.mp hturn
  have hobeyed := (front_obey (m'.anew .lineStart) (.ofLine m'.line)).1
  exact hturned.trans (hobeyed.trans hdialect)

/-- **The loop over listed lines is made of turns**, which share the lines among them. -/
theorem exists_turns {R : ρ → ListedLines → Prop} {left : List Text} {given : Nat}
    (hR : LineSupply.Alike R) (hstate : m.state = .lineStart) (hfront : m.front = .lineStart)
    (h : R m.lines ⟨left, given⟩) (place : Nat) :
    ∃ turns final, Turns m place turns final ∧ m.loop place = (.ok (), final) ∧
      left = turns.flatMap LineTurn.lines := by
  induction m, place using loop_induct generalizing left given with
  | goesOn m place next m' hturn ih =>
      rcases fetch_of_listed hR h with ⟨-, n, hfetch, -⟩ | ⟨line, rest, n, rfl, hfetch, rfl, hrest⟩
      · rw [turn_of_end (hstate.trans hfront.symm) hfetch] at hturn
        cases hturn
      · obtain ⟨t, later, given', hline, hleft, hlater, hmade, -⟩ :=
          comesTo_turn hR hstate hfront hfetch hrest place
        have hdialect := dialect_turn hstate hfront hfetch place
        rw [hturn] at hlater hmade hdialect
        have hafter : m'.state = m'.front := front_turn (Or.inr (hstate.trans hfront.symm)) hturn
        have hfront' : m'.front = .lineStart := (front_congr hdialect).trans hfront
        obtain ⟨turns, final, hturns, hloop, hlines⟩ := ih (hafter.trans hfront') hfront' hlater
        refine ⟨t :: turns, final, .more ⟨hstate, n, hfetch, hline.symm⟩ hmade hturn hturns,
          (loop_of_turn hturn).trans hloop, ?_⟩
        rw [List.flatMap_cons, LineTurn.lines, hline, ← hlines, hleft]
        rfl
  | finished m place m' hturn =>
      rcases fetch_of_listed hR h with ⟨rfl, n, hfetch, -⟩ |
        ⟨line, rest, n, rfl, hfetch, rfl, hrest⟩
      · rw [turn_of_end (hstate.trans hfront.symm) hfetch] at hturn
        cases hturn
        have hend : m.turn place = (.finished, m') :=
          turn_of_end (hstate.trans hfront.symm) hfetch
        exact ⟨[], m', .ended hfetch hend, loop_of_last_turn hend, rfl⟩
      · obtain ⟨t, later, given', hline, hleft, -, hmade, hend⟩ :=
          comesTo_turn hR hstate hfront hfetch hrest place
        rw [hturn] at hmade hend
        obtain ⟨-, rfl⟩ := hend.resolve_left (by simp [Progress.unplaced])
        refine ⟨[t], m', .last ⟨hstate, n, hfetch, hline.symm⟩ hmade hturn,
          loop_of_last_turn hturn, ?_⟩
        rw [hleft, ← hline]
        simp [LineTurn.lines]
  | failed m place e m' hturn =>
      rcases fetch_of_listed hR h with ⟨-, n, hfetch, -⟩ | ⟨line, rest, n, rfl, hfetch, rfl, hrest⟩
      · rw [turn_of_end (hstate.trans hfront.symm) hfetch] at hturn
        cases hturn
      · obtain ⟨t, later, given', -, -, -, -, hend⟩ :=
          comesTo_turn hR hstate hfront hfetch hrest place
        rw [hturn] at hend
        rcases hend with hproceed | ⟨hfinished, -⟩
        · cases hproceed
        · cases hfinished

namespace Turns

/-- The calls, the problems and the open key behind all turns. -/
theorem ends (h : Turns m place turns final) :
    final.store.calls = m.store.calls ++ turns.flatMap LineTurn.calls ∧
      final.kinds = m.kinds ++ turns.flatMap LineTurn.noted ∧
      final.key = LineTurn.lastKey m.key turns := by
  induction h with
  | ended hfetch hturn =>
      obtain ⟨-, -, -, -, hkey, hstore⟩ := kept_of_fetch hfetch
      have hkinds := congrArg (List.map Diagnostic.kind) (diagnostics_fetch hfetch)
      exact ⟨by simp [hstore], by simpa [kinds] using hkinds, hkey⟩
  | last hline hmade hturn =>
      exact ⟨by simpa using hmade.calls, by simpa using hmade.noted, hmade.key⟩
  | more hline hmade hturn rest ih =>
      obtain ⟨hcalls, hkinds, hkey⟩ := ih
      refine ⟨?_, ?_, ?_⟩
      · rw [hcalls, hmade.calls, List.flatMap_cons, List.append_assoc]
      · rw [hkinds, hmade.noted, List.flatMap_cons, List.append_assoc]
      · rw [hkey, hmade.key, ← LineTurn.lastKey_cons]

end Turns

/-- An importer in front of the line of a turn, behind the turns before it. -/
structure StandsBefore (m₀ : Importer ρ RecordedMemory KeyHandle) (before : List LineTurn)
    (t : LineTurn) (m : Importer ρ RecordedMemory KeyHandle) (place : Nat) : Prop where
  line : m.Dispatches t
  calls : m.store.calls = m₀.store.calls ++ before.flatMap LineTurn.calls
  key : m.key = LineTurn.lastKey m₀.key before
  made : Made t m (m.turn place).2

theorem standsBefore_first (hline : m.Dispatches t)
    (hmade : Made t m (m.turn place).2) : m.StandsBefore [] t m place :=
  ⟨hline, by simp, rfl, hmade⟩

/-- One turn more in front. -/
theorem StandsBefore.behind {first : LineTurn} (h : m'.StandsBefore before t m'' place)
    (hmade : Made first m m') : m.StandsBefore (first :: before) t m'' place where
  line := h.line
  calls := by rw [h.calls, hmade.calls, List.flatMap_cons, List.append_assoc]
  key := by rw [h.key, hmade.key, ← LineTurn.lastKey_cons]
  made := h.made

/-- Every turn has its moment. -/
theorem Turns.exists_moment (h : Turns m place turns final)
    (hsplit : turns = before ++ t :: after) :
    ∃ m' place', m.Visits place m' place' ∧ m.StandsBefore before t m' place' := by
  induction h generalizing before with
  | ended hfetch hturn => simp at hsplit
  | @last m m' place first hline hmade hturn =>
      cases before with
      | nil =>
          obtain ⟨rfl, -⟩ := List.cons_eq_cons.mp hsplit
          exact ⟨m, place, .here m place, standsBefore_first hline (by rwa [hturn])⟩
      | cons first' before => simp at hsplit
  | @more m m' final place next first turns hline hmade hturn rest ih =>
      cases before with
      | nil =>
          obtain ⟨rfl, -⟩ := List.cons_eq_cons.mp hsplit
          exact ⟨m, place, .here m place, standsBefore_first hline (by rwa [hturn])⟩
      | cons first' before =>
          obtain ⟨rfl, hrest⟩ := List.cons_eq_cons.mp hsplit
          obtain ⟨m'', place', hvisits, hbefore⟩ := ih hrest
          exact ⟨m'', place', .turn hturn hvisits, hbefore.behind hmade⟩

/-- Every moment at which a line is taken has its turn. -/
theorem Turns.exists_turn (h : Turns m place turns final) (hvisits : m.Visits place m' place')
    (hfetch : m'.fetch = (.ok true, m'')) :
    ∃ before t after, turns = before ++ t :: after ∧ m.StandsBefore before t m' place' := by
  induction hvisits generalizing turns with
  | here m place =>
      cases h with
      | ended hnone hturn =>
          rw [hfetch] at hnone
          cases hnone
      | last hline hmade hturn =>
          exact ⟨[], _, [], rfl, standsBefore_first hline (by rwa [hturn])⟩
      | more hline hmade hturn rest =>
          exact ⟨[], _, _, rfl, standsBefore_first hline (by rwa [hturn])⟩
  | turn first rest ih =>
      cases h with
      | ended hnone hturn =>
          rw [first] at hturn
          cases hturn
      | last hline hmade hturn =>
          rw [first] at hturn
          cases hturn
      | more hline hmade hturn hturns =>
          rw [first] at hturn
          cases hturn
          obtain ⟨before, t, after, rfl, hbefore⟩ := ih hturns hfetch
          exact ⟨_ :: before, t, after, rfl, hbefore.behind hmade⟩

/-- The turn of a structured header goes on in front of the first line. -/
theorem turn_structured_header {m m' : Importer ρ RecordedMemory KeyHandle}
    (hstate : m.state = .header) (hfetch : m.fetch = (.ok true, m'))
    (hstructured : (Dialect.ofHeader m'.line).isStructured = true) (place : Nat) :
    m.turn place = (.proceed 0, (m'.named (Dialect.ofHeader m'.line)).enter .lineStart) := by
  have himportable : (Dialect.ofHeader m'.line).isImportable = true := by
    revert hstructured
    cases Dialect.ofHeader m'.line <;> decide
  rw [turn_header hstate, headerStep, hfetch]
  simp only [classify, himportable, hstructured]
  rfl

/-- The loop of an importer in front of a structured header. -/
theorem exists_turns_behind_header {R : ρ → ListedLines → Prop} {header : Text}
    {body : List Text} {given : Nat} (hR : LineSupply.Alike R) (hstate : m.state = .header)
    (h : R m.lines ⟨header :: body, given⟩)
    (hstructured : (Dialect.ofHeader header).isStructured = true) :
    ∃ (first : Importer ρ RecordedMemory KeyHandle) (turns : List LineTurn)
      (final : Importer ρ RecordedMemory KeyHandle),
      m.turn 0 = (.proceed 0, first) ∧ first.store = m.store ∧ first.key = m.key ∧
        first.kinds = m.kinds ∧ Turns first 0 turns final ∧ m.loop 0 = (.ok (), final) ∧
        body = turns.flatMap LineTurn.lines := by
  rcases fetch_of_listed hR h with ⟨hnil, -⟩ | ⟨line, rest, m', hlines, hfetch, rfl, hrest⟩
  · cases hnil
  obtain ⟨rfl, rfl⟩ := List.cons_eq_cons.mp hlines
  obtain ⟨-, -, -, -, hkey, hstore⟩ := kept_of_fetch hfetch
  have hturn := turn_structured_header hstate hfetch hstructured 0
  have hfront : ((m'.named (Dialect.ofHeader m'.line)).enter .lineStart).front = .lineStart :=
    if_neg fun hdialect => by
      have hwindows : Dialect.ofHeader m'.line = .windows31 := Option.some.inj hdialect
      rw [hwindows] at hstructured
      cases hstructured
  obtain ⟨turns, final, hturns, hloop, hbody⟩ := exists_turns
    (m := (m'.named (Dialect.ofHeader m'.line)).enter .lineStart) hR rfl hfront hrest 0
  have hkinds : m'.kinds = m.kinds :=
    congrArg (List.map Diagnostic.kind) (diagnostics_fetch hfetch)
  exact ⟨_, turns, final, hturn, hstore, hkey, hkinds, hturns, (loop_of_turn hturn).trans hloop,
    hbody⟩

end Loop

end Importer

/-- **Values go to the key that the file names.**  The body of a structured file is cut
into turns, and the calls and the problems of its import are those of the turns, but for
closing the last key.  Every turn serves its line with the key of the last opening line
in front of it, and the turns are exactly what is done with the lines that are taken at
the start of a line. -/
theorem turns_of_structured {source : Source} {bytes : Bytes} (h : source.Delivers bytes)
    (denied : List Text) (refuses : Nat → Bool) {options : ImportOptions}
    {m₀ : Importer LineReader RecordedMemory KeyHandle}
    (hm₀ : Importer.ofSource source ⟨⟨denied.foldl MemoryStore.deny {}, refuses, 0⟩, []⟩ options =
      .ok m₀)
    {header : Text} {body : List Text} (hlines : fileLines options.page bytes = header :: body)
    (hstructured : (Dialect.ofHeader header).isStructured = true) :
    ∃ turns : List LineTurn, body = turns.flatMap LineTurn.lines ∧
      m₀.run.2.store.calls = turns.flatMap LineTurn.calls ++
        ((LineTurn.lastKey none turns).map StoreCall.closeKey).toList ∧
      m₀.run.2.kinds = turns.flatMap LineTurn.noted ∧
      (∀ before t after, turns = before ++ t :: after →
        t.Serves (LineTurn.lastKey none before) ∧
        ∃ m place, m₀.Visits 0 m place ∧ m₀.StandsBefore before t m place) ∧
      ∀ m m' place, m₀.Visits 0 m place → m.state = .lineStart → m.fetch = (.ok true, m') →
        ∃ before t after, turns = before ++ t :: after ∧ m₀.StandsBefore before t m place := by
  obtain ⟨hlists, hstate, hkey, -, hstore, hreport⟩ := Importer.listed_of_delivers h hm₀
  rw [hlines] at hlists
  obtain ⟨first, turns, final, hturn, hstoreFirst, hkeyFirst, hkindsFirst, hturns, hloop, hbody⟩ :=
    Importer.exists_turns_behind_header LineReader.alike_listed hstate hlists hstructured
  have hcalls : first.store.calls = [] := by rw [hstoreFirst, hstore]; rfl
  have hkinds : first.kinds = [] := by rw [hkindsFirst, Importer.kinds, hreport]; rfl
  rw [hkey] at hkeyFirst
  obtain ⟨hcallsEnd, hkindsEnd, hkeyEnd⟩ := hturns.ends
  rw [hcalls, List.nil_append] at hcallsEnd
  rw [hkinds, List.nil_append] at hkindsEnd
  rw [hkeyFirst] at hkeyEnd
  -- what stands behind the header stands behind the new importer
  have hstands : ∀ {before t m place}, first.StandsBefore before t m place →
      m₀.StandsBefore before t m place := by
    intro before t m place hbefore
    refine ⟨hbefore.line, ?_, ?_, hbefore.made⟩
    · rw [hbefore.calls, hstoreFirst]
    · rw [hbefore.key, hkeyFirst, hkey]
  refine ⟨turns, hbody, ?_, ?_, ?_, ?_⟩
  · rw [Importer.store_run, hloop, Importer.calls_closeKey, hcallsEnd, hkeyEnd]
  · rw [Importer.kinds, Importer.report_run, hloop]
    exact hkindsEnd
  · intro before t after hsplit
    obtain ⟨m, place, hvisits, hbefore⟩ := hturns.exists_moment hsplit
    have hserves := hbefore.made.serves
    rw [hbefore.key, hkeyFirst] at hserves
    exact ⟨hserves, m, place, .turn hturn hvisits, hstands hbefore⟩
  · intro m m' place hvisits hline hfetch
    cases hvisits with
    | here =>
        rw [hstate] at hline
        cases hline
    | turn header' rest =>
        rw [hturn] at header'
        cases header'
        obtain ⟨before, t, after, hsplit, hbefore⟩ := hturns.exists_turn rest hfetch
        exact ⟨before, t, after, hsplit, hstands hbefore⟩

/-- A file with a value in front of all keys, a deletion, a list that takes a line with a
key, and a key that is denied. -/
def misleadingText : Text :=
  "REGEDIT4\n@=\"\"\n[HKCU\\A]\n[-HKCU]\n@=hex:1,\\\n[HKU]\n\"a\"=\"\"\n\"b\"=hex:2\n[HKCU\\D\\x]\n@=\"\"\n".toList

/-- A new importer of that file, with a denied key and a first write that is refused. -/
def importerOfMisleading : Importer LineReader RecordedMemory KeyHandle :=
  Importer.ofFirstBytes 0x52 0x45 (.ofBytes ((Utf8.encode misleadingText).drop 2))
    ⟨⟨["HKCU\\D".toList].foldl MemoryStore.deny {}, fun n => n == 0, 0⟩, []⟩ {}

/-- The values of the misleading file go to the one key that it opens. -/
theorem turns_of_structured_misleading :
    Importer.ofSource (.ofBytes (Utf8.encode misleadingText))
        ⟨⟨["HKCU\\D".toList].foldl MemoryStore.deny {}, fun n => n == 0, 0⟩, []⟩ {} =
          .ok importerOfMisleading ∧
      importerOfMisleading.run.2.store.behind.behind.log =
        [.openKey "HKEY_CURRENT_USER\\A".toList,
          .setValue "HKEY_CURRENT_USER\\A".toList (some ['b']) .binary [2],
          .closeKey "HKEY_CURRENT_USER\\A".toList] ∧
      ∃ turns : List LineTurn,
        "REGEDIT4".toList :: turns.flatMap LineTurn.lines =
          fileLines (.singleByte .windows1252) (Utf8.encode misleadingText) ∧
        importerOfMisleading.run.2.store.calls = turns.flatMap LineTurn.calls ++
          ((LineTurn.lastKey none turns).map StoreCall.closeKey).toList ∧
        ∀ before t after, turns = before ++ t :: after →
          t.Serves (LineTurn.lastKey none before) := by
  have hm₀ : Importer.ofSource (.ofBytes (Utf8.encode misleadingText))
      ⟨⟨["HKCU\\D".toList].foldl MemoryStore.deny {}, fun n => n == 0, 0⟩, []⟩ {} =
        .ok importerOfMisleading := rfl
  have hlines : fileLines (.singleByte .windows1252) (Utf8.encode misleadingText) =
      "REGEDIT4".toList ::
        (fileLines (.singleByte .windows1252) (Utf8.encode misleadingText)).tail := by
    decide +kernel
  obtain ⟨turns, hbody, hcalls, -, hserves, -⟩ :=
    turns_of_structured (Source.delivers_ofBytes _) _ _ hm₀ hlines (by decide)
  refine ⟨hm₀, by decide +kernel, turns, ?_, hcalls, fun before t after hsplit =>
    (hserves before t after hsplit).1⟩
  rw [← hbody]
  exact hlines.symm

end RegistryText
