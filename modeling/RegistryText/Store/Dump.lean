import RegistryText.Store.Memory

/-!
# Listings of a store

A listing shows each key in brackets, then its values, one a line, and then an
empty line.  A value shows its name between quotes, or `@` for the default
value, the name of its type and a view of its data.  Nothing is escaped.
-/

namespace RegistryText

/-- The line of a value. -/
def StoredValue.listing (value : StoredValue) : Text :=
  let name := match value.name with
    | none => ['@']
    | some name => '"' :: name ++ ['"']
  name ++ " (".toList ++ value.type.name ++ ") = ".toList ++ value.view.render ++ ['\n']

/-- The lines of a key. -/
def StoredKey.listing (key : StoredKey) : Text :=
  '[' :: key.path ++ "]\n".toList ++ key.values.flatMap StoredValue.listing ++ ['\n']

/-- The lines of the keys of a store. -/
def MemoryStore.listing (store : MemoryStore) : Text :=
  store.keys.flatMap StoredKey.listing

end RegistryText
