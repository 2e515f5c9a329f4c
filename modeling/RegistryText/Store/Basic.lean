import RegistryText.Store.RootKey
import RegistryText.Value.Type

/-!
# Stores

An import writes to a store through four calls: it resolves the root of a key
path, opens a key and so creates it if it is missing, sets values of the open
key, and closes it.  A store answers a call that it refuses with the reason, and
an import does not repeat a refused call.
-/

namespace RegistryText

/-- Why a store refused a call. -/
inductive StoreError where
  /-- The path begins with no root key. -/
  | unknownRootKey (path : Text)
  /-- The handle belongs to no open key. -/
  | keyNotOpen
  /-- A reason of the store's own. -/
  | backend (reason : Text)
  deriving DecidableEq, Repr

/-- The message of a refusal. -/
def StoreError.message : StoreError → Text
  | unknownRootKey path => "Unknown root key in path '".toList ++ path ++ ['\'']
  | keyNotOpen => "Key handle is not open".toList
  | backend reason => "Store error: ".toList ++ reason

/-- A store of type `σ` with handles of type `κ`. -/
class RegistryStore (σ : Type) (κ : outParam Type) where
  /-- The root key of a path, and the path below it. -/
  resolveRoot : σ → Text → Option (RootKey × Text) := fun _ path => RootKey.split? path
  /-- Open the key with a path below a root; missing keys are created. -/
  openKey : σ → RootKey → Text → Except StoreError κ × σ
  /-- Close a handle. -/
  closeKey : σ → κ → σ
  /-- Set a value; without a name it is the default value of the key. -/
  setValue : σ → κ → Option Text → ValueType → Bytes → Except StoreError Unit × σ

end RegistryText
