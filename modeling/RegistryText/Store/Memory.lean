import RegistryText.Store.Basic
import RegistryText.Store.KeyPath
import RegistryText.Value.Data

/-!
# The store in memory

The store keeps its keys in the order of their slots, and every key with the
spelling that it was created with.  The values of a key stay in the order in
which they were first set; a value is found again by its name up to ASCII case
and keeps the spelling of its first name.  Every call that changed the store,
an opened key, a set value or a closed key, is noted in a log.

Handles are numbered from zero in each store.  **A call knows a handle by its
number alone**, so a store cannot tell the handle of another store from its own
one of the same number.
-/

namespace RegistryText

/-- A call that a store carried out. -/
inductive StoreOp where
  /-- A key was opened. -/
  | openKey (path : Text)
  /-- A handle was closed. -/
  | closeKey (path : Text)
  /-- A value was set. -/
  | setValue (path : Text) (name : Option Text) (type : ValueType) (data : Bytes)
  deriving DecidableEq, Repr

/-- Whether two names are of one value; only the default value has none. -/
def sameValueName : Option Text → Option Text → Bool
  | none, none => true
  | some a, some b => a.sameIgnoringAsciiCase b
  | _, _ => false

/-- A value of a key. -/
structure StoredValue where
  /-- The name, with the spelling of the first call that set the value. -/
  name : Option Text
  /-- The declared type. -/
  type : ValueType
  /-- The data. -/
  data : Bytes
  deriving DecidableEq, Repr

/-- The data according to the type. -/
def StoredValue.view (value : StoredValue) : ValueData :=
  ValueData.ofBytes value.type value.data

/-- Set a value in a list of values: replace the type and the data of the one
with the same name, or append one. -/
def setStoredValue (name : Option Text) (type : ValueType) (data : Bytes) :
    List StoredValue → List StoredValue
  | [] => [⟨name, type, data⟩]
  | value :: rest =>
      if sameValueName value.name name then { value with type := type, data := data } :: rest
      else value :: setStoredValue name type data rest

/-- A key of a store. -/
structure StoredKey where
  /-- The canonical path, with the spelling that the key was created with. -/
  path : Text
  /-- The values, in the order in which they were first set. -/
  values : List StoredValue
  deriving DecidableEq, Repr

/-- The value of a name. -/
def StoredKey.value? (key : StoredKey) (name : Option Text) : Option StoredValue :=
  key.values.find? fun value => sameValueName value.name name

/-- The handle of an open key. -/
structure KeyHandle where
  /-- The number of the handle in its store. -/
  id : Nat
  /-- The slot of the key. -/
  slot : Text
  /-- The canonical path, with the spelling of the call that opened it. -/
  path : Text
  deriving DecidableEq, Repr

/-- Keys with their slots, in the order of slots. -/
abbrev KeyTable := List (Text × StoredKey)

namespace KeyTable

/-- The key in a slot. -/
def key? (table : KeyTable) (slot : Text) : Option StoredKey :=
  (table.find? fun entry => entry.1 = slot).map (·.2)

/-- Create a key without values in a slot, unless the slot is taken. -/
def ensure (slot path : Text) : KeyTable → KeyTable
  | [] => [(slot, ⟨path, []⟩)]
  | (taken, key) :: rest =>
      if taken = slot then (taken, key) :: rest
      else if slot.before taken then (slot, ⟨path, []⟩) :: (taken, key) :: rest
      else (taken, key) :: ensure slot path rest

/-- Create the keys of paths, in order. -/
def ensureAll (table : KeyTable) (paths : List Text) : KeyTable :=
  paths.foldl (fun table path => ensure (slotOf path) path table) table

/-- Set a value of the key in a slot. -/
def setValue (slot : Text) (name : Option Text) (type : ValueType) (data : Bytes) :
    KeyTable → KeyTable
  | [] => []
  | (taken, key) :: rest =>
      if taken = slot then
        (taken, { key with values := setStoredValue name type data key.values }) :: rest
      else (taken, key) :: setValue slot name type data rest

end KeyTable

/-- A store in memory. -/
structure MemoryStore where
  /-- The keys. -/
  table : KeyTable := []
  /-- The numbers of the open handles. -/
  opened : List Nat := []
  /-- The number of the next handle. -/
  nextId : Nat := 0
  /-- The calls carried out, oldest first. -/
  log : List StoreOp := []
  /-- The slots of the denied keys. -/
  denied : List Text := []
  deriving Repr

namespace MemoryStore

/-- Deny a key and all keys below it; a path without a root denies nothing. -/
def deny (store : MemoryStore) (path : Text) : MemoryStore :=
  match slotOfPath? path with
  | none => store
  | some slot => { store with denied := store.denied ++ [slot] }

/-- Whether a slot is denied. -/
def isDenied (store : MemoryStore) (slot : Text) : Bool :=
  store.denied.any fun above => slotCovers above slot

/-- The keys, in the order of their slots. -/
def keys (store : MemoryStore) : List StoredKey :=
  store.table.map (·.2)

/-- The key that a path names. -/
def key? (store : MemoryStore) (path : Text) : Option StoredKey :=
  (slotOfPath? path).bind store.table.key?

/-- The value of a name in the key that a path names. -/
def value? (store : MemoryStore) (path : Text) (name : Option Text) : Option StoredValue :=
  (store.key? path).bind (·.value? name)

/-- The number of values in all keys. -/
def valueCount (store : MemoryStore) : Nat :=
  store.keys.foldr (fun key n => key.values.length + n) 0

/-- The number of open handles. -/
def openCount (store : MemoryStore) : Nat :=
  store.opened.length

/-- Open a key and create it and the missing keys above it, unless it is
denied. -/
def openKey (store : MemoryStore) (root : RootKey) (path : Text) :
    Except StoreError KeyHandle × MemoryStore :=
  let full := canonicalPath root path
  let slot := slotOf full
  if store.isDenied slot then
    (.error (.backend ("access denied: ".toList ++ full)), store)
  else
    (.ok ⟨store.nextId, slot, full⟩,
     { store with
       table := store.table.ensureAll (canonicalPaths root path)
       opened := store.nextId :: store.opened
       nextId := store.nextId + 1
       log := store.log ++ [.openKey full] })

/-- Close a handle; a number that is not open is passed over. -/
def closeKey (store : MemoryStore) (handle : KeyHandle) : MemoryStore :=
  if store.opened.contains handle.id then
    { store with
      opened := store.opened.erase handle.id
      log := store.log ++ [.closeKey handle.path] }
  else store

/-- Set a value of the key of an open handle. -/
def setValue (store : MemoryStore) (handle : KeyHandle) (name : Option Text)
    (type : ValueType) (data : Bytes) : Except StoreError Unit × MemoryStore :=
  if store.opened.contains handle.id && (store.table.key? handle.slot).isSome then
    (.ok (),
     { store with
       table := store.table.setValue handle.slot name type data
       log := store.log ++ [.setValue handle.path name type data] })
  else (.error .keyNotOpen, store)

end MemoryStore

instance : RegistryStore MemoryStore KeyHandle where
  openKey := MemoryStore.openKey
  closeKey := MemoryStore.closeKey
  setValue := MemoryStore.setValue

end RegistryText
