import RegistryText.Store.RootKey
import RegistryText.Text.LowerCase

/-!
# Key paths

Below its root a key path is a list of components; empty ones between two
backslashes or at an end do not count.  The *canonical path* of a key is the
full name of its root and its components, each behind one backslash.  **Two
paths name the same key when their canonical paths have the same lower case**,
which is the key's *slot* in a store.
-/

namespace RegistryText

/-- The components of a path below a root. -/
def pathComponents (path : Text) : List Text :=
  (Text.piecesAt '\\' path).filter fun component => !component.isEmpty

/-- A path with components added to it. -/
def extendPath (path : Text) (components : List Text) : Text :=
  path ++ components.flatMap ('\\' :: ·)

/-- The canonical path of a key. -/
def canonicalPath (root : RootKey) (path : Text) : Text :=
  extendPath root.name (pathComponents path)

/-- A path and all that come from it by adding the components one by one. -/
def pathsDown (path : Text) : List Text → List Text
  | [] => [path]
  | component :: rest => path :: pathsDown (extendPath path [component]) rest

/-- The canonical paths of a key's root, of the keys between them, and of the
key. -/
def canonicalPaths (root : RootKey) (path : Text) : List Text :=
  pathsDown root.name (pathComponents path)

/-- The slot of a key, given its canonical path. -/
def slotOf (path : Text) : Text :=
  path.lowerCase

/-- The slot of the key that a path with its root names. -/
def slotOfPath? (path : Text) : Option Text :=
  (RootKey.split? path).map fun split => slotOf (canonicalPath split.1 split.2)

/-- Whether a slot is another one or lies below it. -/
def slotCovers (above slot : Text) : Bool :=
  match Text.after? above slot with
  | none => false
  | some [] => true
  | some (c :: _) => c = '\\'

end RegistryText
