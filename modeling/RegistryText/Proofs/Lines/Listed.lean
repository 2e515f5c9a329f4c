import RegistryText.Lines.Supply
import RegistryText.Proofs.Lines.Reading

/-!
# Listed lines

The plainest supply of lines is a list of them with a count of those that have
been given.  Two supplies are *alike* when they give the same answers for ever;
`LineSupply.Alike` is the relation that a proof of it exhibits.

`alike_listed` compares the line reader with a list: a reader that faces code
units is alike to the list of their decoded lines.  So an import may be
reasoned about on its lines alone.
-/

namespace RegistryText

/-- Lines that are left, and the number of those that have been given. -/
structure ListedLines where
  left : List Text
  given : Nat := 0
  deriving DecidableEq, Repr

namespace ListedLines

/-- The next line of the list. -/
def next (lines : ListedLines) : Except Text (Option Text) × ListedLines :=
  match lines.left with
  | [] => (.ok none, lines)
  | line :: left => (.ok (some line), ⟨left, lines.given + 1⟩)

theorem size_next {lines rest : ListedLines} {line : Text}
    (h : lines.next = (.ok (some line), rest)) : rest.left.length < lines.left.length := by
  unfold next at h
  split at h
  · cases h
  next left hleft =>
    cases h
    simp [hleft]

end ListedLines

instance : LineSupply ListedLines where
  next := ListedLines.next
  lineNumber := ListedLines.given
  close lines := ⟨[], lines.given⟩
  size lines := lines.left.length
  size_next := ListedLines.size_next

/-- A supply gives lines, one after the other, and is `rest` behind them. -/
inductive LineSupply.Gives {ρ : Type} [LineSupply ρ] : ρ → List Text → ρ → Prop
  | nothing (lines : ρ) : Gives lines [] lines
  | line {lines next rest : ρ} {line : Text} {more : List Text}
      (first : LineSupply.next lines = (.ok (some line), next)) (tail : Gives next more rest) :
      Gives lines (line :: more) rest

/-- A relation between supplies that give the same answers and stay related. -/
structure LineSupply.Alike {ρ ρ' : Type} [LineSupply ρ] [LineSupply ρ'] (R : ρ → ρ' → Prop) :
    Prop where
  lineNumber : ∀ {lines lines'}, R lines lines' →
    LineSupply.lineNumber lines = LineSupply.lineNumber lines'
  next : ∀ {lines lines'}, R lines lines' → ∃ rest',
    LineSupply.next lines' = ((LineSupply.next lines).1, rest') ∧ R (LineSupply.next lines).2 rest'
  close : ∀ {lines lines'}, R lines lines' → R (LineSupply.close lines) (LineSupply.close lines')

/-- Every supply is alike to itself. -/
theorem LineSupply.alike_eq {ρ : Type} [LineSupply ρ] :
    LineSupply.Alike (fun lines lines' : ρ => lines = lines') where
  lineNumber h := congrArg _ h
  next := by
    rintro lines _ rfl
    exact ⟨_, rfl, rfl⟩
  close h := congrArg _ h

namespace LineReader

/-- A reader is listed by the decoded lines of the units that it faces, and by
no lines once it is closed. -/
def Lists (r : LineReader) (lines : ListedLines) : Prop :=
  lines.given = r.lineNumber ∧
    ((r.source = none ∧ lines.left = []) ∨
      ∃ units, r.Faces units ∧ lines.left =
        (linesOf carriageReturn lineFeed units).map (r.encoding.decodeUnits r.page))

/-- **A line reader is alike to the list of its lines.** -/
theorem alike_listed : LineSupply.Alike Lists where
  lineNumber h := h.1.symm
  close h := ⟨h.1, Or.inl ⟨rfl, rfl⟩⟩
  next := by
    rintro r ⟨left, given⟩ ⟨rfl, ⟨hclosed, rfl⟩ | ⟨units, hfaces, rfl⟩⟩
    · show ∃ rest', ListedLines.next _ = (r.next.1, rest') ∧ Lists r.next.2 rest'
      rw [next_of_closed hclosed]
      exact ⟨_, rfl, rfl, Or.inl ⟨hclosed, rfl⟩⟩
    · show ∃ rest', ListedLines.next _ = (r.next.1, rest') ∧ Lists r.next.2 rest'
      rcases next_of_faces hfaces with ⟨rfl, r', hnext, hclosed, hnumber⟩ |
        ⟨line, rest, r', hlines, hnext, hrest, hnumber, hencoding, hpage⟩
      · rw [hnext]
        exact ⟨_, rfl, hnumber.symm, Or.inl ⟨hclosed, rfl⟩⟩
      · rw [hnext, hlines]
        refine ⟨_, rfl, hnumber.symm, Or.inr ⟨rest, hrest, ?_⟩⟩
        rw [hencoding, hpage]

end LineReader

end RegistryText
