import RegistryText.Encoding.CodePage
import RegistryText.Lines.Capacity

/-!
# Options of an import

The reader of a file chooses the code page of narrow text and the first
capacity of the line buffer.  Without a choice the page is windows-1252 and the
buffer holds 4096 code units.
-/

namespace RegistryText

/-- The options of an import. -/
structure ImportOptions where
  /-- The code page of narrow text. -/
  page : CodePage := .singleByte .windows1252
  /-- The first size of the line buffer. -/
  buffer : BufferSize := .standard

namespace ImportOptions

/-- The first capacity of the line buffer. -/
def capacity (options : ImportOptions) : Capacity :=
  options.buffer.toCapacity

/-- Choose the code page by a label, if the label is known. -/
def withLabel? (options : ImportOptions) (others : List OtherPage) (label : Text) :
    Option ImportOptions :=
  (CodePage.ofLabel? others label).map fun page => { options with page := page }

/-- Choose the first capacity of the line buffer. -/
def withBufferUnits (options : ImportOptions) (units : UInt64) : ImportOptions :=
  { options with buffer := .ofWord units }

end ImportOptions

end RegistryText
