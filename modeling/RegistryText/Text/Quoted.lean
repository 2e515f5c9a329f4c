import RegistryText.Text.Hex
import RegistryText.Text.Property.Graphic
import RegistryText.Text.Property.DefaultIgnorable
import RegistryText.Text.Property.GraphemeExtend

/-!
# Quoted text in messages

A header that cannot be used is shown between double quotes.  What would not
show as itself is escaped: the quote and the backslash by a backslash, four
control characters by a letter or digit, and every other character that leaves
no trace of its own by its code point, as in `\u{301}`.  Three kinds of
characters leave none: those that are not graphic, those that may be ignored,
and those that join the character in front of them.
-/

namespace RegistryText.Text

/-- Whether a character is drawn onto the one in front of it.  The halfwidth
sound marks of the katakana, U+FF9E and U+FF9F, extend that one too, but have a
cell of their own. -/
def joinsPrevious (c : Char) : Bool :=
  isGraphemeExtend c && !(c = '\uff9e' || c = '\uff9f')

/-- Whether a character shows as itself wherever it stands. -/
def showsAsItself (c : Char) : Bool :=
  isGraphic c && !isDefaultIgnorable c && !joinsPrevious c

/-- The shown form of one character. -/
def quotedChar (c : Char) : Text :=
  if c = '\x00' then ['\\', '0']
  else if c = '\t' then ['\\', 't']
  else if c = '\r' then ['\\', 'r']
  else if c = '\n' then ['\\', 'n']
  else if c = '"' || c = '\\' then ['\\', c]
  else if showsAsItself c then [c]
  else ['\\', 'u', '\x7b'] ++ hexMinimal c.toNat ++ ['\x7d']

/-- The shown form of a text, between double quotes. -/
def quoted (t : Text) : Text :=
  '"' :: t.flatMap quotedChar ++ ['"']

end RegistryText.Text
