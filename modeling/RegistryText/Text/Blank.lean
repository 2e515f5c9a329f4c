import RegistryText.Text.Basic

/-!
# Blanks and white space

The registry grammar knows two blanks, the space and the tab.  The end of a
key in a Windows 3.1 line and the label of a code page go by the Unicode
property `White_Space` instead, which holds the two blanks and 23 more
characters.
-/

namespace RegistryText

/-- The blanks of the grammar: space and tab. -/
def isBlank (c : Char) : Bool :=
  c = ' ' || c = '\t'

namespace Text

/-- The text without the blanks at its start. -/
def skipBlanks (t : Text) : Text :=
  t.dropWhile isBlank

/-- The text without the blanks at its end. -/
def trimBlanksRight (t : Text) : Text :=
  (t.reverse.dropWhile isBlank).reverse

/-- Whether the text is empty or a `;` comment. -/
def isEmptyOrComment : Text → Bool
  | [] => true
  | c :: _ => c = ';'

end Text

/-- The Unicode property `White_Space`. -/
def isWhiteSpace (c : Char) : Bool :=
  let n := c.toNat
  (9 ≤ n && n ≤ 13) || n = 0x20 || n = 0x85 || n = 0xA0 || n = 0x1680 ||
    (0x2000 ≤ n && n ≤ 0x200A) || n = 0x2028 || n = 0x2029 || n = 0x202F ||
    n = 0x205F || n = 0x3000

/-- The text without the white space at its start and its end. -/
def Text.trimWhiteSpace (t : Text) : Text :=
  ((t.dropWhile isWhiteSpace).reverse.dropWhile isWhiteSpace).reverse

end RegistryText
