import RegistryText.Text.Basic

/-!
# Decoders that replace what they cannot read

A decoder reads units of one kind, bytes or 16-bit words, from left to right
and emits characters.  What stands between two units, such as the first bytes of
an unfinished character, is its state.  **It never rejects**: an ill-formed
part becomes a replacement character, and an unfinished one does so when the
input ends.

`run` is a left fold; `run_nil` and `run_cons` are the equations it is reasoned
with.
-/

namespace RegistryText

/-- The character that stands for what could not be decoded. -/
def replacementChar : Char := '\uFFFD'

/-- A left-to-right decoder of units of type `α` with states of type `σ`. -/
structure Decoder (α σ : Type) where
  /-- The state between characters. -/
  start : σ
  /-- The characters a unit completes, and the state behind it. -/
  step : σ → α → Text × σ
  /-- The characters that the end of the input completes. -/
  close : σ → Text

namespace Decoder

variable {α σ : Type} (d : Decoder α σ)

/-- Decode from a state on, given the characters emitted so far in reverse. -/
def runOnto : Text → σ → List α → Text
  | out, s, [] => ((d.close s).reverse ++ out).reverse
  | out, s, a :: rest =>
      let r := d.step s a
      runOnto (r.1.reverse ++ out) r.2 rest

/-- Decode from a state on. -/
def run (s : σ) (units : List α) : Text :=
  d.runOnto [] s units

/-- Decode a whole input. -/
def decode (units : List α) : Text :=
  d.run d.start units

theorem runOnto_eq (out : Text) (s : σ) (units : List α) :
    d.runOnto out s units = out.reverse ++ d.run s units := by
  induction units generalizing out s with
  | nil => simp [runOnto, run]
  | cons a rest ih =>
      have h : d.run s (a :: rest) =
          d.runOnto ((d.step s a).1.reverse ++ []) (d.step s a).2 rest := rfl
      rw [h, ih, runOnto, ih]
      simp

@[simp] theorem run_nil (s : σ) : d.run s [] = d.close s := by
  simp [run, runOnto]

theorem run_cons (s : σ) (a : α) (rest : List α) :
    d.run s (a :: rest) = (d.step s a).1 ++ d.run (d.step s a).2 rest := by
  rw [run, runOnto, runOnto_eq]
  simp

end Decoder

end RegistryText
