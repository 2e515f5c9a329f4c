import RegistryText.Store.Memory

/-!
# Snapshots of a store

A snapshot is the list of keys with their values as a JSON text, laid out with
two blanks for each level.  Every key shows its path and its values, and every
value its name, which is `null` for the default value, the name of its type and
its data as a list of numbers.
-/

namespace RegistryText

namespace JsonText

/-- The JSON form of one character of a string. -/
def char (c : Char) : Text :=
  if c = '"' then ['\\', '"']
  else if c = '\\' then ['\\', '\\']
  else if c = '\x08' then ['\\', 'b']
  else if c = '\x0c' then ['\\', 'f']
  else if c = '\n' then ['\\', 'n']
  else if c = '\r' then ['\\', 'r']
  else if c = '\t' then ['\\', 't']
  else if c.toNat < 0x20 then ['\\', 'u'] ++ Text.hexPadded .lower 4 c.toNat
  else [c]

/-- A JSON string. -/
def string (t : Text) : Text :=
  '"' :: t.flatMap char ++ ['"']

/-- The end of a line and the blanks in front of the next, at a level. -/
def newLine (level : Nat) : Text :=
  '\n' :: List.replicate (2 * level) ' '

/-- Items of a level between two brackets, one a line. -/
def block (opening closing : Char) (level : Nat) (items : List Text) : Text :=
  if items.isEmpty then [opening, closing]
  else
    opening :: newLine (level + 1) ++
      Text.joinWith (',' :: newLine (level + 1)) items ++ newLine level ++ [closing]

/-- A JSON array that stands at a level. -/
def array (level : Nat) (items : List Text) : Text :=
  block '[' ']' level items

/-- A JSON object that stands at a level. -/
def object (level : Nat) (fields : List (Text × Text)) : Text :=
  block '\x7b' '\x7d' level (fields.map fun f => string f.1 ++ ": ".toList ++ f.2)

end JsonText

/-- The JSON form of a value. -/
def StoredValue.toJson (value : StoredValue) : Text :=
  let name := match value.name with
    | none => "null".toList
    | some name => JsonText.string name
  JsonText.object 3
    [("name".toList, name),
     ("value_type".toList, JsonText.string value.type.name),
     ("data".toList, JsonText.array 4 (value.data.map fun b => Text.decimal b.toNat))]

/-- The JSON form of a key. -/
def StoredKey.toJson (key : StoredKey) : Text :=
  JsonText.object 1
    [("path".toList, JsonText.string key.path),
     ("values".toList, JsonText.array 2 (key.values.map StoredValue.toJson))]

/-- The JSON form of the keys of a store. -/
def MemoryStore.toJson (store : MemoryStore) : Text :=
  JsonText.array 0 (store.keys.map StoredKey.toJson)

end RegistryText
