import RegistryText.Text.Property.LowerCase
import RegistryText.Text.Property.Cased
import RegistryText.Text.Property.CaseIgnorable

/-!
# Lower case of texts

Key paths are compared in full Unicode lower case.  Two characters need more
than the simple mapping of single characters: the capital I with a dot above
becomes two characters, and **the capital sigma looks around itself**.  At the
end of a word, that is behind a cased letter and before none, it becomes the
final sigma; everywhere else the medial one.  Case-ignorable characters are
passed over on both sides, and any other character ends the look.
-/

namespace RegistryText

/-- The capital I with a dot above. -/
def dottedCapitalI : Char := '\u0130'

/-- The capital sigma. -/
def capitalSigma : Char := '\u03A3'

/-- The lower case of a character that does not depend on its surroundings. -/
def lowerCaseChar (c : Char) : Text :=
  if c = dottedCapitalI then ['i', '\u0307'] else [simpleLowerCase c]

namespace Text

/-- Whether the first character that is not case-ignorable is a cased
letter. -/
def meetsCased (t : Text) : Bool :=
  match t.dropWhile isCaseIgnorable with
  | [] => false
  | c :: _ => isCased c

/-- The lower case of a capital sigma between `back`, the text in front of it
in reverse, and `ahead`. -/
def lowerSigma (back ahead : Text) : Char :=
  if meetsCased back && !meetsCased ahead then '\u03C2' else '\u03C3'

/-- The lower case of a text that stands behind the reverse of `back`. -/
def lowerCaseBehind (back : Text) : Text → Text
  | [] => []
  | c :: rest =>
      (if c = capitalSigma then [lowerSigma back rest] else lowerCaseChar c) ++
        lowerCaseBehind (c :: back) rest

/-- The full Unicode lower case of a text. -/
def lowerCase (t : Text) : Text :=
  lowerCaseBehind [] t

example : lowerCase "ΟΔΟΣ\\Σ".toList = "οδος\\σ".toList := by decide +kernel

example : lowerCase "ΟΔΟΣ.Σ".toList = "οδοσ.ς".toList := by decide +kernel

end Text

end RegistryText
