import RegistryText.Text.Basic

/-!
# Escaped text

Value names and strings stand between double quotes.  Inside, a backslash
escapes the character behind it: `\n`, `\r` and `\0` stand for a line feed, a
carriage return and the character of code 0, `\\` and `\"` for a backslash and
a quote.  **Any other escaped character stands for itself** and is noted as an
unknown escape.  The first quote that is not escaped ends the text.
-/

namespace RegistryText.Escaped

/-- What a known escape stands for. -/
def meaning? (c : Char) : Option Char :=
  if c = 'n' then some '\n'
  else if c = 'r' then some '\r'
  else if c = '0' then some '\x00'
  else if c = '\\' || c = '"' then some c
  else none

/-- An escaped text that has been read. -/
structure Unescaped where
  /-- The text that is meant. -/
  text : Text
  /-- What follows the closing quote. -/
  rest : Text
  /-- The unknown escapes, in order. -/
  unknown : List Char
  deriving DecidableEq, Repr

/-- Put a plain character in front. -/
def Unescaped.plain (c : Char) (u : Unescaped) : Unescaped :=
  { u with text := c :: u.text }

/-- Put an escaped character in front. -/
def Unescaped.escape (c : Char) (u : Unescaped) : Unescaped :=
  match meaning? c with
  | some m => { u with text := m :: u.text }
  | none => { u with text := c :: u.text, unknown := c :: u.unknown }

/-- Read the text behind an opening quote, unless no quote closes it. -/
def read? : Text → Option Unescaped
  | [] => none
  | [c] => if c = '"' then some ⟨[], [], []⟩ else none
  | c :: d :: rest =>
      if c = '"' then some ⟨[], d :: rest, []⟩
      else if c = '\\' then (read? rest).map (·.escape d)
      else (read? (d :: rest)).map (·.plain c)

example : read? "a\\n\\\\\\\"\" ; trailing".toList =
    some ⟨"a\n\\\"".toList, " ; trailing".toList, []⟩ := by decide

example : read? "C:\\temp\"".toList = some ⟨"C:temp".toList, [], ['t']⟩ := by decide

example : read? "abc\\\"".toList = none := by decide

end RegistryText.Escaped
