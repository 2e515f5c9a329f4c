import RegistryText.Text.Basic

/-!
# Root keys

The keys of a registry form five trees.  Each tree has a root with a full and a
short name, and the first component of a key path is either of them in any
case.
-/

namespace RegistryText

/-- The root of a tree of keys. -/
inductive RootKey where
  | classesRoot
  | currentUser
  | localMachine
  | users
  | currentConfig
  deriving DecidableEq, Repr

namespace RootKey

/-- All root keys. -/
def all : List RootKey :=
  [classesRoot, currentUser, localMachine, users, currentConfig]

/-- The full name. -/
def name : RootKey → Text
  | classesRoot => "HKEY_CLASSES_ROOT".toList
  | currentUser => "HKEY_CURRENT_USER".toList
  | localMachine => "HKEY_LOCAL_MACHINE".toList
  | users => "HKEY_USERS".toList
  | currentConfig => "HKEY_CURRENT_CONFIG".toList

/-- The short name. -/
def shortName : RootKey → Text
  | classesRoot => "HKCR".toList
  | currentUser => "HKCU".toList
  | localMachine => "HKLM".toList
  | users => "HKU".toList
  | currentConfig => "HKCC".toList

/-- Whether a text is the full or the short name, in any case. -/
def isNamed (root : RootKey) (token : Text) : Bool :=
  token.sameIgnoringAsciiCase root.name || token.sameIgnoringAsciiCase root.shortName

/-- The root that the first component of a path names, and the path below
it. -/
def split? (path : Text) : Option (RootKey × Text) :=
  let token := path.takeWhile (· ≠ '\\')
  let below := (path.dropWhile (· ≠ '\\')).drop 1
  (all.find? (·.isNamed token)).map fun root => (root, below)

example : split? "hklm\\Software\\".toList = some (localMachine, "Software\\".toList) := by decide

example : split? "HKEY_CURRENT_USERS\\x".toList = none := by decide

end RootKey

end RegistryText
