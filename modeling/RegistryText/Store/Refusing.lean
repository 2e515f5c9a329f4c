import RegistryText.Store.Basic

/-!
# Stores that refuse chosen writes

A refusing store stands in front of another one and counts the calls that set
a value.  The calls with chosen numbers, counted from zero over the whole life
of the store, fail and do not reach the store behind; all other calls do.
-/

namespace RegistryText

/-- A store in front of another that refuses chosen writes. -/
structure RefusingStore (σ : Type) where
  /-- The store behind. -/
  behind : σ
  /-- Whether the write of a number is refused. -/
  refuses : Nat → Bool
  /-- The number of writes so far. -/
  writes : Nat := 0

namespace RefusingStore

variable {σ κ : Type} [RegistryStore σ κ]

/-- The reason of a refused write. -/
def refusal : StoreError :=
  .backend "write rejected".toList

/-- Count a write, and pass it on unless its number is refused. -/
def setValue (store : RefusingStore σ) (key : κ) (name : Option Text) (type : ValueType)
    (data : Bytes) : Except StoreError Unit × RefusingStore σ :=
  let counted := { store with writes := store.writes + 1 }
  if store.refuses store.writes then (.error refusal, counted)
  else
    let r := RegistryStore.setValue store.behind key name type data
    (r.1, { counted with behind := r.2 })

end RefusingStore

instance {σ κ : Type} [RegistryStore σ κ] : RegistryStore (RefusingStore σ) κ where
  resolveRoot store path := RegistryStore.resolveRoot (κ := κ) store.behind path
  openKey store root path :=
    let r := RegistryStore.openKey store.behind root path
    (r.1, { store with behind := r.2 })
  closeKey store key := { store with behind := RegistryStore.closeKey store.behind key }
  setValue := RefusingStore.setValue

end RegistryText
