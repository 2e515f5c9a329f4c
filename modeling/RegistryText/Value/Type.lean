import RegistryText.Text.Hex

/-!
# Types of registry values

A value declares its type by a 32-bit code.  Twelve codes have a name; every
other code is a type as well and is kept as `unknown`.  A type that says
`unknown` of a named code is a type of its own: it has that code and the name
of an unknown one.
-/

namespace RegistryText

/-- The declared type of a registry value. -/
inductive ValueType where
  | none
  | string
  | expandString
  | binary
  | dword
  | dwordBigEndian
  | link
  | multiString
  | resourceList
  | fullResourceDescriptor
  | resourceRequirementsList
  | qword
  | unknown (code : UInt32)
  deriving DecidableEq, Repr

namespace ValueType

/-- The code of a type. -/
def code : ValueType → UInt32
  | none => 0
  | string => 1
  | expandString => 2
  | binary => 3
  | dword => 4
  | dwordBigEndian => 5
  | link => 6
  | multiString => 7
  | resourceList => 8
  | fullResourceDescriptor => 9
  | resourceRequirementsList => 10
  | qword => 11
  | unknown code => code

/-- The type of a code: a named one if there is one. -/
def ofCode (code : UInt32) : ValueType :=
  match code.toNat with
  | 0 => none
  | 1 => string
  | 2 => expandString
  | 3 => binary
  | 4 => dword
  | 5 => dwordBigEndian
  | 6 => link
  | 7 => multiString
  | 8 => resourceList
  | 9 => fullResourceDescriptor
  | 10 => resourceRequirementsList
  | 11 => qword
  | _ => unknown code

/-- The name of a type; an unknown one is named by its code in eight digits. -/
def name : ValueType → Text
  | none => "REG_NONE".toList
  | string => "REG_SZ".toList
  | expandString => "REG_EXPAND_SZ".toList
  | binary => "REG_BINARY".toList
  | dword => "REG_DWORD".toList
  | dwordBigEndian => "REG_DWORD_BIG_ENDIAN".toList
  | link => "REG_LINK".toList
  | multiString => "REG_MULTI_SZ".toList
  | resourceList => "REG_RESOURCE_LIST".toList
  | fullResourceDescriptor => "REG_FULL_RESOURCE_DESCRIPTOR".toList
  | resourceRequirementsList => "REG_RESOURCE_REQUIREMENTS_LIST".toList
  | qword => "REG_QWORD".toList
  | unknown code => "REG_UNKNOWN_0x".toList ++ Text.hexPadded .lower 8 code.toNat

/-- The type of a code has that code. -/
theorem code_ofCode (code : UInt32) : (ofCode code).code = code := by
  unfold ofCode
  split
  case h_13 => rfl
  all_goals exact UInt32.toNat_inj.mp (by simp_all [ValueType.code])

end ValueType

end RegistryText
