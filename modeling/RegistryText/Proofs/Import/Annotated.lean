import RegistryText.Proofs.Import.Body
import RegistryText.Proofs.Import.Comments
import RegistryText.Proofs.Import.Removal

/-!
# Comments are transparent

A file may be annotated in two ways: comments may be put on lines of their own, anywhere
behind the header and so within a list of bytes as well, and behind a line of a structured
file that is not blank and on which nothing is noted.  **The import of the annotated file
has the same outcome, leaves the same store, and notes problems of the same kinds in the
same order** (`run_of_annotated`).

The two imports are compared turn by turn.  A comment on a line of its own is a turn of the
second import for which the first one takes none, or a line that its list passes over; any
other line is taken by both, and read in the same way.  That nothing is noted on a line with
a comment behind it is needed where the line alone would be void: there the comment might
make sense of it.
-/

namespace RegistryText

/-- The line, or the line with a comment behind it if it is quiet and not blank.  A comment
behind a key holds no closing bracket, since the last one ends the key. -/
inductive Commented (quiet : Prop) (line : Text) : Text → Prop
  | plain : Commented quiet line line
  | behind {comment : Text} (hquiet : quiet) (hline : line.skipBlanks ≠ [])
      (hkey : line.skipBlanks.head? = some '[' → ']' ∉ comment) (hcomment : comment.IsComment) :
      Commented quiet line (line ++ comment)

/-- Lines behind the first `given` ones of a file, and the same lines with comments on lines of
their own and behind lines with a quiet number. -/
inductive Annotated (quiet : Nat → Prop) : Nat → List Text → List Text → Prop
  | done (given : Nat) : Annotated quiet given [] []
  | comment {given : Nat} {line : Text} {lines lines' : List Text} (hcomment : line.IsComment)
      (rest : Annotated quiet given lines lines') : Annotated quiet given lines (line :: lines')
  | line {given : Nat} {line line' : Text} {lines lines' : List Text}
      (first : Commented (quiet (given + 1)) line line')
      (rest : Annotated quiet (given + 1) lines lines') :
      Annotated quiet given (line :: lines) (line' :: lines')

/-- A comment behind a line makes no comment of it. -/
theorem Commented.startsWith {quiet : Prop} {line line' : Text} (h : Commented quiet line line') :
    line'.skipBlanks.startsWith [';'] = line.skipBlanks.startsWith [';'] := by
  cases h with
  | plain => rfl
  | behind hquiet hline hkey hcomment =>
      obtain ⟨c, rest, hskip⟩ := List.exists_cons_of_ne_nil hline
      rw [Bool.eq_iff_iff, Text.startsWith_singleton_iff, Text.startsWith_singleton_iff,
        Text.skipBlanks_append_of_cons hskip, hskip, List.head?_cons, List.head?_cons]

/-- A line of a list of bytes is read as before, unless it is malformed; but then it is not
quiet. -/
theorem Commented.readLine {quiet : Prop} {line line' : Text} (h : Commented quiet line line')
    (hread : (HexList.readLine line.skipBlanks).1 = none → ¬quiet) :
    HexList.readLine line'.skipBlanks = HexList.readLine line.skipBlanks := by
  cases h with
  | plain => rfl
  | behind hquiet hline hkey hcomment =>
      rw [HexList.readLine_skipBlanks, HexList.readLine_skipBlanks] at *
      rcases hline : HexList.readLine line with ⟨_ | ending, bytes⟩
      · exact absurd hquiet (hread (by rw [hline]))
      · exact HexList.readLine_comment hcomment hline

/-- A line of the body is read as before, if it is one of a structured file and states no problem
whenever it is quiet. -/
theorem Commented.ofBody {state : ImportState} {line line' : Text} {quiet : Prop}
    (hline : Commented quiet line line')
    (hquiet : quiet → state = .lineStart ∧ (Reading.ofBody state line).Sound) :
    Reading.ofBody state line' = Reading.ofBody state line := by
  cases hline with
  | plain => rfl
  | behind hq hblank hkey hcomment =>
      obtain ⟨rfl, hsound⟩ := hquiet hq
      exact Reading.ofLine_append hcomment hblank hkey hsound

namespace Importer

variable {σ κ : Type} {quiet : Nat → Prop} {m m' n n' : Importer ListedLines σ κ}

/-- The second importer has the lines of the first one, annotated, and has noted problems of the
same kinds. -/
def Annotates (quiet : Nat → Prop) : Importer ListedLines σ κ → Importer ListedLines σ κ → Prop :=
  Twins (fun lines lines' => Annotated quiet lines.given lines.left lines'.left)
    fun d d' => d'.map Diagnostic.kind = d.map Diagnostic.kind

/-- The kinds stay the same when the same is noted, under whatever numbers. -/
theorem notesAlike_kinds {L : ListedLines → ListedLines → Prop} :
    NotesAlike L fun d d' => d'.map Diagnostic.kind = d.map Diagnostic.kind := by
  intro lines lines' d d' kinds hlines hkinds
  simp [hkinds]

theorem Annotates.note (h : Annotates quiet m n) (kinds : List DiagnosticKind) :
    Annotates quiet (m.note kinds) (n.note kinds) :=
  Twins.note notesAlike_kinds h kinds

variable [RegistryStore σ κ]

theorem Annotates.finish (h : Annotates quiet m n) : Annotates quiet m.finish n.finish :=
  Twins.finish (fun _ => .done _) h

/-- What the two importers do looks at nothing else. -/
theorem companions_annotates :
    Companions (Annotates quiet : Importer ListedLines σ κ → Importer ListedLines σ κ → Prop) :=
  companions_twins notesAlike_kinds

/-! ### Lines -/

omit [RegistryStore σ κ] in
/-- What the two importers take next. -/
theorem Annotates.fetch (h : Annotates quiet m n) :
    (m.fetch = (.ok false, m) ∧ n.fetch = (.ok false, n)) ∨
      (∃ n', n.fetch = (.ok true, n') ∧ n'.line.IsComment ∧ Annotates quiet m n') ∨
      ∃ m' n', m.fetch = (.ok true, m') ∧ n.fetch = (.ok true, n') ∧ Annotates quiet m' n' ∧
        Commented (quiet m'.lines.given) m'.line n'.line := by
  have hlines := h.lines
  rcases hm : m.lines with ⟨left, given⟩
  rcases hn : n.lines with ⟨left', given'⟩
  rw [hm, hn] at hlines
  cases hlines with
  | done =>
      have hnext : LineSupply.next m.lines = (.ok none, m.lines) := by rw [hm]; rfl
      have hnext' : LineSupply.next n.lines = (.ok none, n.lines) := by rw [hn]; rfl
      refine Or.inl ⟨?_, ?_⟩
      · simp only [Importer.fetch, hnext]
      · simp only [Importer.fetch, hnext']
  | comment hcomment rest =>
      refine Or.inr (Or.inl ⟨_, by rw [Importer.fetch, hn]; rfl, hcomment, ?_⟩)
      exact { h with lines := by rw [hm]; exact rest }
  | line first rest =>
      refine Or.inr (Or.inr ⟨_, _, by rw [Importer.fetch, hm]; rfl,
        by rw [Importer.fetch, hn]; rfl, ?_, first⟩)
      exact { h with lines := rest }

omit [RegistryStore σ κ] in
/-- The lines that continue a list of bytes are taken by both, and the second importer passes
over its comments on the way. -/
theorem Annotates.gather (h : Annotates quiet m n) (bytes : Bytes)
    (hquiet : (m.gather bytes).1 = .malformed → ¬quiet (m.gather bytes).2.lines.given) :
    (n.gather bytes).1 = (m.gather bytes).1 ∧
      Annotates quiet (m.gather bytes).2 (n.gather bytes).2 := by
  induction hleft : n.lines.left.length using Nat.strongRecOn generalizing m n bytes with
  | ind left ih =>
      rcases h.fetch with ⟨hm, hn⟩ | ⟨n', hn, hcomment, hrelated⟩ |
        ⟨m', n', hm, hn, hrelated, hline⟩
      · rw [gather_of_end hm, gather_of_end hn]
        exact ⟨rfl, h⟩
      · obtain ⟨text, hskip⟩ := hcomment.skipBlanks
        have hcomment' : n'.line.skipBlanks.startsWith [';'] = true := by rw [hskip]; rfl
        rw [gather_of_comment hn hcomment']
        exact ih _ (hleft ▸ (size_fetch hn).1) hrelated bytes hquiet rfl
      · have hsame := hline.startsWith
        have hless : n'.lines.left.length < left := hleft ▸ (size_fetch hn).1
        cases hcomment : m'.line.skipBlanks.startsWith [';'] with
        | true =>
            rw [hcomment] at hsame
            rw [gather_of_comment hm hcomment] at hquiet ⊢
            rw [gather_of_comment hn hsame]
            exact ih _ hless hrelated bytes hquiet rfl
        | false =>
            rw [hcomment] at hsame
            rw [gather_of_line hm hcomment] at hquiet ⊢
            rw [gather_of_line hn hsame, hline.readLine ?_]
            · rcases hread : HexList.readLine m'.line.skipBlanks with ⟨_ | _ | _, more⟩ <;>
                rw [hread] at hquiet
              · exact ⟨rfl, hrelated⟩
              · exact ⟨rfl, hrelated⟩
              · exact ih _ hless hrelated (bytes ++ more) hquiet rfl
            · intro hmalformed
              rcases hread : HexList.readLine m'.line.skipBlanks with ⟨_ | _ | _, more⟩ <;>
                rw [hread] at hmalformed hquiet
              · exact hquiet rfl
              · cases hmalformed
              · cases hmalformed

/-! ### Turns -/

/-- Whether nothing is noted on the lines with a quiet number. -/
def KeepsQuiet (quiet : Nat → Prop) (m : Importer ListedLines σ κ) : Prop :=
  ∀ d ∈ m.report.diagnostics, ¬quiet d.line

/-- A fault is noted on its line. -/
theorem sound_of_keepsQuiet {r : Reading} (hkeeps : KeepsQuiet quiet (m.obey r).2)
    (hquiet : quiet m.lines.given) : r.Sound := by
  intro kind hfault
  have hmem : Diagnostic.mk m.lines.given kind ∈ (m.obey r).2.report.diagnostics := by
    rw [Importer.obey, hfault]
    simp [Importer.carryOut, Importer.note, LineSupply.lineNumber]
  exact hkeeps _ hmem hquiet

/-- A line that breaks a list off is noted. -/
theorem not_quiet_of_malformed {name : Option Text} {type : ValueType} {bytes : Bytes}
    (hkeeps : KeepsQuiet quiet (m.carryOut (.list name type bytes)).2)
    (hmalformed : (m.gather bytes).1 = .malformed) : ¬quiet (m.gather bytes).2.lines.given := by
  rcases hgather : m.gather bytes with ⟨ending, m'⟩
  rw [hgather] at hmalformed
  obtain rfl : ending = .malformed := hmalformed
  rw [Importer.carryOut, hgather] at hkeeps
  refine hkeeps ⟨m'.lines.given, .invalidHexData⟩ ?_
  simp [Importer.note, LineSupply.lineNumber]

/-- Both do what a line states that they have taken. -/
theorem Annotates.obey (h : Annotates quiet m n) {r : Reading} (hplain : r.IsPlain)
    (hkeeps : KeepsQuiet quiet (m.obey r).2) :
    (n.obey r).1 = (m.obey r).1 ∧ Annotates quiet (m.obey r).2 (n.obey r).2 := by
  refine companions_annotates.carryOut (h.note _) hplain fun name type bytes hlist => ?_
  rw [Importer.obey, hlist] at hkeeps
  exact (h.note _).gather bytes (not_quiet_of_malformed hkeeps)

/-- What the second importer does in front of a comment on a line of its own. -/
theorem Annotates.turn_of_comment (h : Annotates quiet m n') (hn : n.state = n.front)
    (hstate : n.state = m.state) (hfetch : n.fetch = (.ok true, n'))
    (hcomment : n'.line.IsComment) (place : Nat) :
    ∃ next n'', n.turn place = (.proceed next, n'') ∧ Annotates quiet m n'' := by
  have hturn := turn_of_line hn hfetch place
  have hnothing : (n'.anew n.front).obey { statement := .nothing } =
      (.proceed 0, n'.anew n.front) := by
    rw [Importer.obey, List.map_nil, note_nil]
    rfl
  rw [Reading.ofBody_of_isComment _ hcomment, hnothing] at hturn
  have hrelated : Annotates quiet m (n'.anew n.front) :=
    { h with state := hn.symm.trans hstate }
  rcases hend : n.turn place with ⟨next | _ | e, n''⟩ <;> rw [hend] at hturn
  · exact ⟨next, n'', rfl, companions_annotates.settled hrelated rfl (congrArg Prod.snd hturn)⟩
  · cases congrArg Prod.fst hturn
  · cases congrArg Prod.fst hturn

/-- **The next turn of the second importer is one that the first importer passes over, or they
take it together.** -/
theorem Annotates.turn (h : Annotates quiet m n) (hfront : m.state = m.front)
    (hstructured : ∀ i, quiet i → m.front = .lineStart) (place place' : Nat)
    (hkeeps : KeepsQuiet quiet (m.turn place).2) :
    (∃ next n', n.turn place' = (.proceed next, n') ∧ Annotates quiet m n') ∨
      (n.turn place').1.unplaced = (m.turn place).1.unplaced ∧
        Annotates quiet (m.turn place).2 (n.turn place').2 := by
  have hfront' : n.state = n.front := by
    rw [h.state, companions_annotates.front h, hfront]
  rcases h.fetch with ⟨hm, hn⟩ | ⟨n', hn, hcomment, hrelated⟩ | ⟨m', n', hm, hn, hrelated, hline⟩
  · rw [turn_of_end hfront hm, turn_of_end hfront' hn]
    exact Or.inr ⟨rfl, h⟩
  · exact Or.inl (hrelated.turn_of_comment hfront' h.state hn hcomment place')
  · have hturn := turn_of_line hfront hm place
    have hturn' := turn_of_line hfront' hn place'
    have hkeeps' : KeepsQuiet quiet ((m'.anew m.front).obey (.ofBody m.front m'.line)).2 := by
      have hreport := (settled_eq_iff.mp hturn).2.2.2.2.2.2
      rwa [KeepsQuiet, hreport] at hkeeps
    have hread : Reading.ofBody m.front n'.line = Reading.ofBody m.front m'.line :=
      hline.ofBody fun hquiet => ⟨hstructured _ hquiet, sound_of_keepsQuiet hkeeps' hquiet⟩
    rw [companions_annotates.front h, hread] at hturn'
    obtain ⟨hprogress, hobeyed⟩ := (companions_annotates.anew m.front hrelated).obey
      (Reading.isPlain_ofBody m.front m'.line) hkeeps'
    refine Or.inr ⟨?_, companions_annotates.settled hobeyed (congrArg Prod.snd hturn)
      (congrArg Prod.snd hturn')⟩
    exact (congrArg Prod.fst hturn').trans ((congrArg Progress.unplaced hprogress).trans
      (congrArg Prod.fst hturn).symm)

/-! ### Loops and runs -/

omit [RegistryStore σ κ] in
theorem KeepsQuiet.of_onward (h : KeepsQuiet quiet m') {low : Nat} (hm : Onward low m m') :
    KeepsQuiet quiet m := by
  obtain ⟨-, new, hnew, -⟩ := hm
  intro d hd
  exact h d (by rw [hnew]; exact List.mem_append_left new hd)

/-- What is noted in a turn is noted in the end. -/
theorem KeepsQuiet.turn_of_loop {place : Nat} (h : KeepsQuiet quiet (m.loop place).2)
    (hfront : m.state = m.front) : KeepsQuiet quiet (m.turn place).2 := by
  rcases hturn : m.turn place with ⟨next | _ | e, m'⟩
  · rw [loop_of_turn hturn] at h
    exact h.of_onward (noted_loop ListedLines.counts (Or.inr (front_turn (Or.inr hfront) hturn))
      next)
  · rwa [loop_of_last_turn hturn] at h
  · rwa [loop_of_failed_turn hturn] at h

omit [RegistryStore σ κ] in
theorem state_ne_of_front (hfront : m.state = m.front) : m.state ≠ .header := by
  rw [hfront, front]
  split <;> simp

/-- The loops of both end alike, by induction on the lines that are left to the second
importer. -/
theorem Annotates.loop (h : Annotates quiet m n) (hfront : m.state = m.front)
    (hstructured : ∀ i, quiet i → m.front = .lineStart) (place place' : Nat)
    (hkeeps : KeepsQuiet quiet (m.loop place).2) :
    (n.loop place').1 = (m.loop place).1 ∧
      Annotates quiet (m.loop place).2 (n.loop place').2 := by
  induction hremaining : n.remaining using Nat.strongRecOn generalizing m n place place' with
  | ind remaining ih =>
      rcases h.turn hfront hstructured place place' (hkeeps.turn_of_loop hfront) with
        ⟨next', n', hturn', hrelated⟩ | ⟨hprogress, hrelated⟩
      · rw [loop_of_turn hturn']
        exact ih _ (hremaining ▸ (rank_turn hturn').2) hrelated hfront hstructured place next'
          hkeeps rfl
      rcases loops_of_turns hprogress hrelated with
        ⟨next, next', m', n', hturn, hturn', hrelated'⟩ | hended
      · have hfront' : m'.front = m.front := by
          have hstays := turn_staysInBody (state_ne_of_front hfront) place
          rw [hturn] at hstays
          exact front_congr hstays.dialect
        rw [loop_of_turn hturn] at hkeeps ⊢
        rw [loop_of_turn hturn']
        exact ih _ (hremaining ▸ (rank_turn hturn').2) hrelated'
          (front_turn (Or.inr hfront) hturn) (fun i hi => hfront'.trans (hstructured i hi)) next
          next' hkeeps rfl
      · exact hended

/-- **The import of annotated lines ends in the same way.** -/
theorem run_ofLines_annotated {encoding : FileEncoding} (encoding' : FileEncoding) {header : Text}
    {body body' : List Text} {store : σ}
    (himport : (Dialect.ofHeader header).isImportable = true)
    (hannotated : Annotated quiet 1 body body')
    (hstructured : ∀ i, quiet i → (Dialect.ofHeader header).isStructured = true)
    (hkeeps : KeepsQuiet quiet (ofLines (κ := κ) encoding (header :: body) store).run.2) :
    (ofLines (κ := κ) encoding' (header :: body') store).run.1 =
        (ofLines (κ := κ) encoding (header :: body) store).run.1 ∧
      Annotates quiet (ofLines (κ := κ) encoding (header :: body) store).run.2
        (ofLines (κ := κ) encoding' (header :: body') store).run.2 := by
  -- the importers that have taken the header
  let taken (encoding : FileEncoding) (body : List Text) : Importer ListedLines σ κ :=
    { lines := ⟨body, 1⟩
      store := store
      line := header
      report := { encoding := encoding, lines := 1 } }
  have hturn : ∀ encoding body, (ofLines encoding (header :: body) store).turn 0 =
      (taken encoding body).classify := fun _ _ => turn_header rfl
  have hrelated : Annotates quiet (taken encoding body) (taken encoding' body') :=
    { lines := hannotated, state := rfl, dialect := rfl, key := rfl, store := rfl, noted := rfl }
  obtain ⟨hprogress, hclassified⟩ := companions_annotates.classify hrelated rfl
  obtain ⟨m, hm, hdialect, -⟩ := classify_of_isImportable (m := taken encoding body) himport
  rw [← hturn, ← hturn] at hprogress hclassified
  rcases loops_of_turns (congrArg Progress.unplaced hprogress) hclassified with
    ⟨next, next', m', n', hfirst, hfirst', hrelated'⟩ | ⟨hended, hrelated'⟩
  · rw [hturn, hm] at hfirst
    cases hfirst
    have hfirst : (ofLines encoding (header :: body) store).turn 0 = (.proceed 0, m) :=
      (hturn encoding body).trans hm
    have hfront : ∀ i, quiet i → m.front = .lineStart := by
      intro i hi
      have hstructured' := hstructured i hi
      rw [front, hdialect]
      refine if_neg fun hwindows => ?_
      rw [Option.some.inj hwindows] at hstructured'
      cases hstructured'
    rw [KeepsQuiet, report_run, loop_of_turn hfirst] at hkeeps
    have hloop := hrelated'.loop (between_classify hm) hfront 0 next' hkeeps
    rw [← loop_of_turn hfirst, ← loop_of_turn hfirst'] at hloop
    exact companions_annotates.run (fun h => h.finish) hloop.1 hloop.2
  · exact companions_annotates.run (fun h => h.finish) hended hrelated'

end Importer

/-- **Comments are transparent.**  Take a file whose header can be imported, and annotate it:
put comments on lines of their own, anywhere behind the header, and, if the file is
structured, behind lines that are not blank and on which no problem is noted, behind a key
without a closing bracket in them.  The import of the annotated file has the same outcome,
leaves the same store, its log included, and notes problems of the same kinds in the same
order. -/
theorem run_of_annotated {σ κ : Type} [RegistryStore σ κ] {source source' : Source}
    {bytes bytes' : Bytes} (h : source.Delivers bytes) (h' : source'.Delivers bytes') {store : σ}
    {options : ImportOptions} {m₀ : Importer LineReader σ κ}
    (hm₀ : Importer.ofSource source store options = .ok m₀) {header : Text}
    {body body' : List Text} (hlines : fileLines options.page bytes = header :: body)
    (hlines' : fileLines options.page bytes' = header :: body')
    (himport : (Dialect.ofHeader header).isImportable = true)
    (hannotated : Annotated (fun i => (Dialect.ofHeader header).isStructured = true ∧
      ∀ d ∈ m₀.run.2.report.diagnostics, d.line ≠ i) 1 body body') :
    ∃ n₀ : Importer LineReader σ κ, Importer.ofSource source' store options = .ok n₀ ∧
      n₀.run.1 = m₀.run.1 ∧ n₀.run.2.store = m₀.run.2.store ∧
      n₀.run.2.report.diagnostics.map Diagnostic.kind =
        m₀.run.2.report.diagnostics.map Diagnostic.kind := by
  obtain ⟨-, -, houtcome, hrun⟩ := Importer.beside_of_delivers h hm₀
  rw [hlines] at houtcome hrun
  have hkeeps : Importer.KeepsQuiet (fun i => (Dialect.ofHeader header).isStructured = true ∧
      ∀ d ∈ m₀.run.2.report.diagnostics, d.line ≠ i)
      (Importer.ofLines (κ := κ) (fileEncoding bytes) (header :: body) store).run.2 := by
    intro d hd hquiet
    rw [hrun.diagnostics_eq] at hd
    exact hquiet.2 d hd rfl
  obtain ⟨houtcome', hrelated⟩ := Importer.run_ofLines_annotated (fileEncoding bytes') himport
    hannotated (fun i hi => hi.1) hkeeps
  have hlong : 2 ≤ bytes'.length := by
    refine Nat.le_of_not_lt fun hshort => ?_
    have hheader : header ∈ fileLines options.page bytes' := by
      rw [hlines']
      exact List.mem_cons_self
    exact absurd (Nat.le_trans (Importer.two_le_of_isImportable himport)
      (length_le_of_mem_fileLines hshort hheader)) (by decide)
  obtain ⟨n₀, hn₀⟩ := Importer.exists_of_delivers (κ := κ) h' hlong store options
  obtain ⟨-, -, houtcome'', hrun'⟩ := Importer.beside_of_delivers h' hn₀
  rw [hlines'] at houtcome'' hrun'
  refine ⟨n₀, hn₀, ?_, ?_, ?_⟩
  · rw [← houtcome'', houtcome', houtcome]
  · rw [← hrun'.store, hrelated.store, hrun.store]
  · rw [← hrun'.diagnostics_eq, hrelated.noted, hrun.diagnostics_eq]

/-- A file with a list of bytes over two lines, and a problem behind it. -/
def plainText : Text :=
  "REGEDIT4\n[HKCU\\A]\n\"h\"=hex:01,\\\n02\n\"b\"=-\n".toList

/-- The file with comments, two of them within the list. -/
def annotatedText : Text :=
  "REGEDIT4\n;[A]\n[HKCU\\A] ;A\n\"h\"=hex:01,\\;1\n ;2\n02;3\n\"b\"=-\n".toList

/-- A new importer of the file without comments. -/
def importerOfPlain : Importer LineReader MemoryStore KeyHandle :=
  Importer.ofFirstBytes 0x52 0x45 (.ofBytes ((Utf8.encode plainText).drop 2)) {} {}

/-- The comments are not seen in what the import of the file leaves and notes. -/
theorem run_of_annotated_list :
    importerOfPlain.run.2.report.diagnostics = [⟨5, .valueDeletionUnsupported⟩] ∧
      ∃ n₀ : Importer LineReader MemoryStore KeyHandle,
        Importer.ofSource (.ofBytes (Utf8.encode annotatedText)) {} {} = .ok n₀ ∧
          n₀.run.1 = importerOfPlain.run.1 ∧ n₀.run.2.store = importerOfPlain.run.2.store ∧
          n₀.run.2.report.diagnostics.map Diagnostic.kind = [.valueDeletionUnsupported] := by
  have hmade : Importer.ofSource (.ofBytes (Utf8.encode plainText)) {} {} =
      .ok importerOfPlain := rfl
  have hnoted : importerOfPlain.run.2.report.diagnostics =
      [⟨5, .valueDeletionUnsupported⟩] := by decide +kernel
  have hlines : fileLines (.singleByte .windows1252) (Utf8.encode plainText) =
      ["REGEDIT4".toList, "[HKCU\\A]".toList, "\"h\"=hex:01,\\".toList, "02".toList,
        "\"b\"=-".toList] := by decide +kernel
  have hlines' : fileLines (.singleByte .windows1252) (Utf8.encode annotatedText) =
      ["REGEDIT4".toList, ";[A]".toList, "[HKCU\\A]".toList ++ " ;A".toList,
        "\"h\"=hex:01,\\".toList ++ ";1".toList, " ;2".toList, "02".toList ++ ";3".toList,
        "\"b\"=-".toList] := by decide +kernel
  have hcomment : ∀ text, Text.IsComment (';' :: text) := fun text =>
    ⟨[], text, by simp [Text.IsBlanks], rfl⟩
  have hindented : ∀ text, Text.IsComment (' ' :: ';' :: text) := fun text =>
    ⟨[' '], text, by simp [Text.IsBlanks, isBlank], rfl⟩
  have hquiet : ∀ i, i ≠ 5 → (Dialect.ofHeader "REGEDIT4".toList).isStructured = true ∧
      ∀ d ∈ importerOfPlain.run.2.report.diagnostics, d.line ≠ i := by
    intro i hi
    refine ⟨by decide, fun d hd => ?_⟩
    rw [hnoted, List.mem_singleton] at hd
    rw [hd]
    exact Ne.symm hi
  obtain ⟨n₀, hn₀, houtcome, hstore, hkinds⟩ :=
    run_of_annotated (Source.delivers_ofBytes (Utf8.encode plainText))
      (Source.delivers_ofBytes (Utf8.encode annotatedText)) hmade hlines hlines' (by decide)
      (.comment (hcomment _)
        (.line (.behind (hquiet 2 (by decide)) (by decide) (fun _ => by decide) (hindented _))
        (.line (.behind (hquiet 3 (by decide)) (by decide) (fun _ => by decide) (hcomment _))
        (.comment (hindented _)
        (.line (.behind (hquiet 4 (by decide)) (by decide) (fun _ => by decide) (hcomment _))
        (.line .plain (.done _)))))))
  refine ⟨hnoted, n₀, hn₀, houtcome, hstore, ?_⟩
  rw [hkinds, hnoted]
  rfl

end RegistryText
