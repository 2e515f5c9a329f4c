import RegistryText.Lines.Reader

/-!
# Supplies of lines

An import asks for its lines one by one and never looks at how they are made.
A supply of lines is anything that answers with a line, with the end of the
lines or with the message of a failure.  **Every line that it gives makes it
smaller**, so an import that takes a line in every round comes to an end.

A line reader is a supply; its size is the number of bytes and failures left
in its source and of the units it holds.
-/

namespace RegistryText

/-- A supply of lines of type `ρ`. -/
class LineSupply (ρ : Type) where
  /-- The next line, nothing if there is none, or the message of a failure. -/
  next : ρ → Except Text (Option Text) × ρ
  /-- The number of lines given. -/
  lineNumber : ρ → Nat
  /-- Let go of what is left. -/
  close : ρ → ρ
  /-- What bounds the number of lines left. -/
  size : ρ → Nat
  size_next : ∀ {supply rest : ρ} {line : Text},
    next supply = (.ok (some line), rest) → size rest < size supply

namespace LineReader

/-- The number of bytes and failures left in the source and of the units
held. -/
def size (r : LineReader) : Nat :=
  (match r.source with
    | none => 0
    | some source => source.size) + r.pending.length + r.half.toList.length

/-- A read makes a reader no larger, whatever it asked for. -/
theorem size_receive_le {r r' : LineReader} {source : Source} {result : Option Text} {count : Nat}
    (hsource : r.source = some source)
    (h : r.makeRoom.receive (source.read count) = (result, r')) : r'.size ≤ r.size := by
  rcases hread : source.read count with ⟨given, rest⟩
  rw [hread] at h
  cases given with
  | error message =>
      cases h
      have hsize := Source.size_failed_read hread
      simp only [size, hsource, makeRoom]
      omega
  | ok bytes =>
      cases h
      have hsize := Source.size_read hread
      have hunits := FileEncoding.length_wholeUnits_le r.encoding (r.half.toList ++ bytes)
      simp only [List.length_append] at hunits
      simp only [size, hsource, append, makeRoom, List.length_append]
      omega

theorem size_fill_le {r r' : LineReader} {source : Source} {result : Option Text}
    (hsource : r.source = some source) (h : r.fill source = (result, r')) :
    r'.size ≤ r.size :=
  size_receive_le hsource h

theorem size_failed_fill {r r' : LineReader} {source : Source} {message : Text}
    (hsource : r.source = some source) (h : r.fill source = (some message, r')) :
    r'.size < r.size := by
  unfold fill at h
  rcases hread : source.read r.makeRoom.request with ⟨given, rest⟩
  rw [hread] at h
  cases given with
  | error text =>
      cases h
      have hsize := Source.size_failed_read hread
      simp only [size, hsource, makeRoom]
      omega
  | ok bytes => cases h

theorem lineEnd_next_le {r : LineReader} {e : LineEnd} (h : r.lineEnd? = some e) :
    0 < e.next ∧ 0 < r.pending.length := by
  have h' := LineEnd.lt_next_of_find? h
  simp only [List.length_drop] at h'
  omega

/-- A line whose end has been read takes its units away. -/
theorem size_advance_lt {r : LineReader} {e : LineEnd} (hend : r.lineEnd? = some e) :
    (r.advance e.next).size < r.size := by
  have := lineEnd_next_le hend
  simp only [size, advance, List.length_drop]
  omega

/-- What is left at the end of the input takes its units away. -/
theorem size_advanceAll_lt {r : LineReader} (hleft : ¬r.pending.isEmpty = true) :
    r.advanceAll.size < r.size := by
  cases hp : r.pending with
  | nil => simp [hp] at hleft
  | cons u rest =>
      simp [size, advanceAll, advance, hp]
      omega

/-- A line takes at least one unit away. -/
theorem size_next {r r' : LineReader} {line : Text}
    (h : r.next = (.ok (some line), r')) : r'.size < r.size := by
  fun_induction next r with
  | case1 r hsource => cases h
  | case2 r source hsource e hend =>
      cases h
      exact size_advance_lt hend
  | case3 r source hsource hend hover hempty => cases h
  | case4 r source hsource hend hover hempty =>
      cases h
      exact size_advanceAll_lt hempty
  | case5 r source hsource hend hopen message r'' hfill => cases h
  | case6 r source hsource hend hopen r'' hfill hless ih =>
      exact Nat.lt_of_lt_of_le (ih h) (size_fill_le hsource hfill)

/-- A failing read is taken away. -/
theorem size_failed_next {r r' : LineReader} {message : Text}
    (h : r.next = (.error message, r')) : r'.size < r.size := by
  fun_induction next r with
  | case1 r hsource => cases h
  | case2 r source hsource e hend => cases h
  | case3 r source hsource hend hover hempty => cases h
  | case4 r source hsource hend hover hempty => cases h
  | case5 r source hsource hend hopen message' r'' hfill =>
      cases h
      exact size_failed_fill hsource hfill
  | case6 r source hsource hend hopen r'' hfill hless ih =>
      exact Nat.lt_of_lt_of_le (ih h) (size_fill_le hsource hfill)

/-- Ask for lines until there is none, given the answers so far in reverse; a
failing read is an answer as well. -/
def drainOnto (answers : List (Except Text Text)) (r : LineReader) :
    List (Except Text Text) × LineReader :=
  match h : r.next with
  | (.ok none, r') => (answers.reverse, r')
  | (.ok (some line), r') =>
      have : r'.size < r.size := size_next h
      drainOnto (.ok line :: answers) r'
  | (.error message, r') =>
      have : r'.size < r.size := size_failed_next h
      drainOnto (.error message :: answers) r'
termination_by r.size

/-- Ask for lines until there is none. -/
def drain (r : LineReader) : List (Except Text Text) × LineReader :=
  r.drainOnto []

end LineReader

instance : LineSupply LineReader where
  next := LineReader.next
  lineNumber := LineReader.lineNumber
  close := LineReader.close
  size := LineReader.size
  size_next := LineReader.size_next

end RegistryText
