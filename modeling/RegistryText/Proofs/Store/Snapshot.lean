import Mathlib.Data.List.Nodup
import RegistryText.Proofs.Payload.Written
import RegistryText.Store.Snapshot

/-!
# A snapshot loses nothing

The JSON text of a store determines its keys.  Each form in it is *legible*: where it stands in
front of what may follow it, a comma, the end of the line or nothing, both the thing that was
printed and what follows can be told from the text.  That is more than that different things
print differently, and it is what carries from the parts of a list or of an object to the whole:
the first part is told, then it is cancelled, and what follows has the other ones
(`Legible.array`, `object_cancel`).

Numbers need the sign behind them, strings carry their own end, and the name of a type tells its
code, an unknown one of a named code from the named one, too (`name_injective`).
-/

namespace RegistryText

namespace JsonText

/-! ### What stands behind a form -/

/-- What may follow a form: a comma, the end of a line, or nothing. -/
def Follows (rest : Text) : Prop :=
  ∀ c ∈ rest.head?, c = ',' ∨ c = '\n'

/-- Nothing may follow a form. -/
theorem follows_nil : Follows [] := by
  intro c hc
  cases hc

/-- A comma may. -/
theorem follows_comma (rest : Text) : Follows (',' :: rest) := by
  intro c hc
  exact Or.inl (Option.some.inj hc).symm

/-- So may the end of a line, with the blanks of the next. -/
theorem follows_newLine (level : Nat) (rest : Text) : Follows (newLine level ++ rest) := by
  intro c hc
  exact Or.inr (Option.some.inj hc).symm

/-- Whoever reads a printed form knows what has been printed and where the form ends. -/
def Legible {α : Type} (print : α → Text) : Prop :=
  ∀ ⦃a b : α⦄ ⦃rest rest' : Text⦄, Follows rest → Follows rest' →
    print a ++ rest = print b ++ rest' → a = b ∧ rest = rest'

section Legible

variable {α β : Type} {print : α → Text}

/-- Different things have different legible forms. -/
theorem Legible.injective (h : Legible print) : Function.Injective print := by
  intro a b hsame
  have hforms : print a ++ [] = print b ++ [] := congrArg (· ++ []) hsame
  exact (h follows_nil follows_nil hforms).1

/-- A thing is legible if something that determines it is. -/
theorem Legible.comp (h : Legible print) {f : β → α} (hf : Function.Injective f) :
    Legible fun b => print (f b) := by
  intro a b rest rest' hrest hrest' hforms
  obtain ⟨hsame, hrests⟩ := h hrest hrest' hforms
  exact ⟨hf hsame, hrests⟩

/-- Whoever reads a printed form knows where it ends, but maybe not all that has been printed. -/
def Delimited (print : α → Text) : Prop :=
  ∀ ⦃a b : α⦄ ⦃rest rest' : Text⦄, Follows rest → Follows rest' →
    print a ++ rest = print b ++ rest' → print a = print b

/-- The form of a part is delimited. -/
theorem Legible.delimited (h : Legible print) (part : β → α) :
    Delimited fun b => print (part b) := by
  intro a b rest rest' hrest hrest' hforms
  exact congrArg print (h hrest hrest' hforms).1

end Legible

/-! ### Strings -/

/-- Read the form of a character in a string. -/
def char? : Text → Option (Char × Text)
  | '\\' :: '"' :: rest => some ('"', rest)
  | '\\' :: '\\' :: rest => some ('\\', rest)
  | '\\' :: 'b' :: rest => some ('\x08', rest)
  | '\\' :: 'f' :: rest => some ('\x0c', rest)
  | '\\' :: 'n' :: rest => some ('\n', rest)
  | '\\' :: 'r' :: rest => some ('\r', rest)
  | '\\' :: 't' :: rest => some ('\t', rest)
  | '\\' :: 'u' :: a :: b :: c :: d :: rest =>
      some (Char.ofNat (Text.hexNumber [a, b, c, d]), rest)
  | '\\' :: _ => none
  | '"' :: _ => none
  | c :: rest => some (c, rest)
  | [] => none

/-- A character without a form of its own stands for itself. -/
theorem char?_of_plain {c : Char} (hslash : c ≠ '\\') (hquote : c ≠ '"') (rest : Text) :
    char? (c :: rest) = some (c, rest) := by
  rw [char?.eq_def]
  split <;> simp_all

/-- The form of a character is read back. -/
theorem char?_char (c : Char) (rest : Text) : char? (char c ++ rest) = some (c, rest) := by
  unfold char
  -- The seven characters with a form of their own.
  iterate 7
    split
    next h => rw [h]; rfl
  split
  next hcontrol =>
    have hbound : c.toNat < Nat.pow 16 4 := Nat.lt_trans hcontrol (by decide)
    obtain ⟨hwritten, hlength⟩ := hexWritten_hexPadded .lower 4 hbound
    obtain ⟨d₁, d₂, d₃, d₄, hdigits⟩ := List.length_eq_four.mp hlength
    have hnumber := hwritten.number
    rw [hdigits] at hnumber ⊢
    have hread : char? ('\\' :: 'u' :: d₁ :: d₂ :: d₃ :: d₄ :: rest) =
        some (Char.ofNat (Text.hexNumber [d₁, d₂, d₃, d₄]), rest) := rfl
    rw [hnumber, Char.ofNat_toNat] at hread
    exact hread
  next hquote hslash _ _ _ _ _ _ => exact char?_of_plain hslash hquote rest

/-- The characters of two strings are the same, and what is behind the strings, by induction on
the first one: the closing quotation mark is not the form of a character. -/
theorem chars_cancel {t t' rest rest' : Text}
    (h : t.flatMap char ++ '"' :: rest = t'.flatMap char ++ '"' :: rest') :
    t = t' ∧ rest = rest' := by
  have hquote : ∀ rest, char? ('"' :: rest) = none := fun _ => rfl
  induction t generalizing t' with
  | nil =>
      cases t' with
      | nil => exact ⟨rfl, List.tail_eq_of_cons_eq h⟩
      | cons d t' =>
          have hread := congrArg char? h
          rw [List.flatMap_cons, List.append_assoc, char?_char, List.flatMap_nil, List.nil_append,
            hquote] at hread
          cases hread
  | cons c t ih =>
      have hread := congrArg char? h
      rw [List.flatMap_cons, List.append_assoc, char?_char] at hread
      cases t' with
      | nil =>
          rw [List.flatMap_nil, List.nil_append, hquote] at hread
          cases hread
      | cons d t' =>
          rw [List.flatMap_cons, List.append_assoc, char?_char] at hread
          obtain ⟨rfl, hrests⟩ := Prod.mk.inj (Option.some.inj hread)
          obtain ⟨rfl, hend⟩ := ih hrests
          exact ⟨rfl, hend⟩

/-- A string carries its end, so it is legible. -/
theorem legible_string : Legible string := by
  intro t t' rest rest' _ _ hforms
  have hchars : t.flatMap char ++ '"' :: rest = t'.flatMap char ++ '"' :: rest' := by
    simpa [string] using hforms
  exact chars_cancel hchars

/-- A text, or nothing. -/
def optional : Option Text → Text
  | none => "null".toList
  | some t => string t

/-- Nothing is told from every text. -/
theorem legible_optional : Legible optional := by
  intro name name' rest rest' hrest hrest' hforms
  cases name with
  | none =>
      cases name' with
      | none => exact ⟨rfl, List.append_cancel_left hforms⟩
      | some t' => simp [optional, string] at hforms
  | some t =>
      cases name' with
      | none => simp [optional, string] at hforms
      | some t' =>
          obtain ⟨rfl, hrests⟩ := legible_string hrest hrest' hforms
          exact ⟨rfl, hrests⟩

/-! ### Numbers -/

/-- No digit follows a form. -/
theorem Follows.isDigit {rest : Text} (h : Follows rest) :
    ∀ c ∈ rest.head?, c.isDigit = false := by
  intro c hc
  rcases h c hc with rfl | rfl <;> rfl

/-- The digits of a number are those in front of what follows it. -/
theorem takeWhile_decimal {rest : Text} (h : Follows rest) (n : Nat) :
    (Text.decimal n ++ rest).takeWhile Char.isDigit = Text.decimal n := by
  have hdigits : ∀ c ∈ Text.decimal n, c.isDigit = true := by
    intro c hc
    exact Nat.isDigit_of_mem_toDigits (by decide) (by decide) hc
  have hrest : rest.takeWhile Char.isDigit = [] := by
    cases rest with
    | nil => rfl
    | cons c rest =>
        rw [List.takeWhile_cons, h.isDigit c rfl]
        rfl
  rw [List.takeWhile_append_of_pos hdigits, hrest, List.append_nil]

/-- A number is legible, for no digit follows it. -/
theorem legible_decimal : Legible Text.decimal := by
  intro n m rest rest' hrest hrest' hforms
  have hdigits := congrArg (List.takeWhile Char.isDigit) hforms
  rw [takeWhile_decimal hrest, takeWhile_decimal hrest'] at hdigits
  have hnumbers := congrArg (fun digits => Nat.ofDigitChars 10 digits 0) hdigits
  simp only [Text.decimal, Nat.ofDigitChars_ten_toDigits] at hnumbers
  rw [hdigits] at hforms
  exact ⟨hnumbers, List.append_cancel_left hforms⟩

/-! ### Lists and objects -/

/-- What stands behind an item of a block: the items behind it and the end of the block. -/
def behindItem (closing : Char) (level : Nat) (items : List Text) (rest : Text) : Text :=
  items.flatMap (fun item => ',' :: newLine (level + 1) ++ item) ++
    (newLine level ++ closing :: rest)

/-- Behind an item stand a comma, a new line and the next item. -/
theorem behindItem_cons (closing : Char) (level : Nat) (item : Text) (items : List Text)
    (rest : Text) :
    behindItem closing level (item :: items) rest =
      ',' :: newLine (level + 1) ++ (item ++ behindItem closing level items rest) := by
  simp [behindItem]

/-- An item has a comma or the end of a line behind it. -/
theorem follows_behindItem (closing : Char) (level : Nat) (items : List Text) (rest : Text) :
    Follows (behindItem closing level items rest) := by
  cases items with
  | nil => exact follows_newLine level _
  | cons item items =>
      rw [behindItem_cons]
      exact follows_comma _

/-- A separator stands in front of each item but the first. -/
theorem joinWith_cons (separator item : Text) (items : List Text) :
    Text.joinWith separator (item :: items) = item ++ items.flatMap (separator ++ ·) := by
  induction items generalizing item with
  | nil => simp [Text.joinWith]
  | cons next items ih =>
      rw [Text.joinWith, ih, List.flatMap_cons, List.append_assoc, List.append_assoc]

/-- The first item of a block stands in it as the other ones do behind it. -/
theorem behindItem_eq_of_block {opening closing : Char} {level : Nat} {item item' : Text}
    {items items' : List Text} {rest rest' : Text}
    (h : block opening closing level (item :: items) ++ rest =
      block opening closing level (item' :: items') ++ rest') :
    behindItem closing level (item :: items) rest =
      behindItem closing level (item' :: items') rest' := by
  have hblock : ∀ item items rest, block opening closing level (item :: items) ++ rest =
      opening :: newLine (level + 1) ++ (item ++ behindItem closing level items rest) := by
    intro item items rest
    simp [block, joinWith_cons, behindItem]
  rw [hblock, hblock] at h
  rw [behindItem_cons, behindItem_cons, List.append_cancel_left h]

section Array

variable {α : Type} {print : α → Text}

/-- The items behind an item are told one by one, by induction on them: a comma stands in front of
each, and the end of a line in front of the closing bracket. -/
theorem Legible.behindItem (h : Legible print) (closing : Char) (level : Nat) {as bs : List α}
    {rest rest' : Text}
    (hforms : behindItem closing level (as.map print) rest =
      behindItem closing level (bs.map print) rest') : as = bs ∧ rest = rest' := by
  induction as generalizing bs with
  | nil =>
      cases bs with
      | nil =>
          have hends := List.append_cancel_left (List.append_cancel_left hforms)
          exact ⟨rfl, List.tail_eq_of_cons_eq hends⟩
      | cons b bs => simp [JsonText.behindItem, newLine] at hforms
  | cons a as ih =>
      cases bs with
      | nil => simp [JsonText.behindItem, newLine] at hforms
      | cons b bs =>
          rw [List.map_cons, List.map_cons, behindItem_cons, behindItem_cons] at hforms
          have hitems := List.append_cancel_left hforms
          obtain ⟨rfl, hbehind⟩ :=
            h (follows_behindItem closing level _ rest) (follows_behindItem closing level _ rest')
              hitems
          obtain ⟨rfl, hrests⟩ := ih hbehind
          exact ⟨rfl, hrests⟩

/-- A list of legible items is legible. -/
theorem Legible.array (h : Legible print) (level : Nat) :
    Legible fun as : List α => array level (as.map print) := by
  intro as bs rest rest' _ _ hforms
  cases as with
  | nil =>
      cases bs with
      | nil => exact ⟨rfl, List.append_cancel_left hforms⟩
      | cons b bs => simp [JsonText.array, block, newLine] at hforms
  | cons a as =>
      cases bs with
      | nil => simp [JsonText.array, block, newLine] at hforms
      | cons b bs =>
          exact h.behindItem ']' level (behindItem_eq_of_block hforms)

end Array

section Object

variable {α : Type} {fields : List (Text × (α → Text))}

/-- The fields of an object, with the forms of what they show of it. -/
def shown (fields : List (Text × (α → Text))) (a : α) : List (Text × Text) :=
  fields.map fun field => (field.1, field.2 a)

/-- A field of an object. -/
def field (f : Text × Text) : Text :=
  string f.1 ++ ": ".toList ++ f.2

/-- The fields behind a field are told one by one, by induction on them. -/
theorem fields_cancel (hfields : ∀ f ∈ fields, Delimited f.2) (level : Nat) {a b : α}
    {rest rest' : Text}
    (hforms : behindItem '\x7d' level ((shown fields a).map field) rest =
      behindItem '\x7d' level ((shown fields b).map field) rest') :
    (∀ f ∈ fields, f.2 a = f.2 b) ∧ rest = rest' := by
  induction fields with
  | nil =>
      have hends := List.append_cancel_left (List.append_cancel_left hforms)
      exact ⟨List.forall_mem_nil _, List.tail_eq_of_cons_eq hends⟩
  | cons f fields ih =>
      obtain ⟨hfirst, hothers⟩ := List.forall_mem_cons.mp hfields
      simp only [shown, List.map_cons, behindItem_cons, field, List.append_assoc] at hforms
      have hitems := List.append_cancel_left
        (List.append_cancel_left (List.append_cancel_left hforms))
      have hsame : f.2 a = f.2 b :=
        hfirst (follows_behindItem '\x7d' level _ rest) (follows_behindItem '\x7d' level _ rest')
          hitems
      rw [hsame] at hitems
      obtain ⟨hsames, hrests⟩ := ih hothers (List.append_cancel_left hitems)
      exact ⟨List.forall_mem_cons.mpr ⟨hsame, hsames⟩, hrests⟩

/-- An object tells the forms of its fields. -/
theorem object_cancel (hfields : ∀ f ∈ fields, Delimited f.2) (level : Nat) {a b : α}
    {rest rest' : Text}
    (hforms : object level (shown fields a) ++ rest = object level (shown fields b) ++ rest') :
    (∀ f ∈ fields, f.2 a = f.2 b) ∧ rest = rest' := by
  cases fields with
  | nil => exact ⟨List.forall_mem_nil _, List.append_cancel_left hforms⟩
  | cons f fields => exact fields_cancel hfields level (behindItem_eq_of_block hforms)

end Object

end JsonText

/-! ### Types -/

namespace ValueType

/-- The types that are not unknown. -/
def named : List ValueType :=
  [none, string, expandString, binary, dword, dwordBigEndian, link, multiString, resourceList,
    fullResourceDescriptor, resourceRequirementsList, qword]

/-- A type has a name of its own, or a code. -/
theorem mem_named_or (type : ValueType) : type ∈ named ∨ ∃ code, type = unknown code := by
  cases type with
  | unknown code => exact Or.inr ⟨code, rfl⟩
  | _ => exact Or.inl (by decide)

/-- None of them is named as an unknown one. -/
theorem name_ne_of_mem_named {type : ValueType} (h : type ∈ named) (code : UInt32) :
    type.name ≠ (unknown code).name := by
  have hnone : ∀ type ∈ named, Text.after? "REG_UNKNOWN_0x".toList type.name = .none := by
    decide +kernel
  intro hname
  have hcode := Text.after?_eq_some_iff.mpr hname
  rw [hnone type h] at hcode
  cases hcode

/-- **Every type has a name of its own**, an unknown type of a named code, too. -/
theorem name_injective : Function.Injective name := by
  intro type type' hname
  rcases mem_named_or type with hnamed | ⟨code, rfl⟩
  · rcases mem_named_or type' with hnamed' | ⟨code', rfl⟩
    · have hdistinct : (named.map name).Nodup := by decide +kernel
      exact List.inj_on_of_nodup_map hdistinct hnamed hnamed' hname
    · exact absurd hname (name_ne_of_mem_named hnamed code')
  · rcases mem_named_or type' with hnamed' | ⟨code', rfl⟩
    · exact absurd hname.symm (name_ne_of_mem_named hnamed' code)
    · have hdigits := List.append_cancel_left hname
      have hnumber := (hexWritten_hexPadded .lower 8 code.toNat_lt).1.number
      rw [hdigits, (hexWritten_hexPadded .lower 8 code'.toNat_lt).1.number] at hnumber
      rw [UInt32.toNat_inj.mp hnumber]

end ValueType

/-! ### Values, keys and stores -/

open JsonText in
/-- What the form of a value shows of it. -/
def StoredValue.jsonFields : List (Text × (StoredValue → Text)) :=
  [("name".toList, fun value => optional value.name),
   ("value_type".toList, fun value => string value.type.name),
   ("data".toList, fun value => array 4 (value.data.map fun b => Text.decimal b.toNat))]

/-- The form of a value shows its fields. -/
theorem StoredValue.toJson_eq (value : StoredValue) :
    value.toJson = JsonText.object 3 (JsonText.shown jsonFields value) := by
  obtain ⟨name, type, data⟩ := value
  cases name <;> rfl

open JsonText in
/-- What the form of a key shows of it. -/
def StoredKey.jsonFields : List (Text × (StoredKey → Text)) :=
  [("path".toList, fun key => string key.path),
   ("values".toList, fun key => array 2 (key.values.map StoredValue.toJson))]

/-- So does the form of a key. -/
theorem StoredKey.toJson_eq (key : StoredKey) :
    key.toJson = JsonText.object 1 (JsonText.shown jsonFields key) := rfl

namespace JsonText

/-- A type is told from its name. -/
theorem legible_type : Legible fun type : ValueType => string type.name :=
  legible_string.comp ValueType.name_injective

/-- Data is told from the list of its bytes. -/
theorem legible_data :
    Legible fun data : Bytes => array 4 (data.map fun b => Text.decimal b.toNat) :=
  (legible_decimal.comp fun _ _ => UInt8.toNat_inj.mp).array 4

/-- A value is told by its name, its type and its data. -/
theorem legible_value : Legible StoredValue.toJson := by
  intro value value' rest rest' _ _ hforms
  rw [StoredValue.toJson_eq, StoredValue.toJson_eq] at hforms
  have hfields : ∀ f ∈ StoredValue.jsonFields, Delimited f.2 := by
    simp only [StoredValue.jsonFields, List.forall_mem_cons]
    exact ⟨legible_optional.delimited _, legible_type.delimited _, legible_data.delimited _,
      List.forall_mem_nil _⟩
  obtain ⟨htold, hrests⟩ := object_cancel hfields 3 hforms
  simp only [StoredValue.jsonFields, List.forall_mem_cons] at htold
  obtain ⟨hname, htype, hdata, -⟩ := htold
  refine ⟨?_, hrests⟩
  rw [StoredValue.mk.injEq]
  exact ⟨legible_optional.injective hname, legible_type.injective htype,
    legible_data.injective hdata⟩

/-- A key is told by its path and its values. -/
theorem legible_key : Legible StoredKey.toJson := by
  intro key key' rest rest' _ _ hforms
  rw [StoredKey.toJson_eq, StoredKey.toJson_eq] at hforms
  have hvalues : Legible fun values : List StoredValue =>
      array 2 (values.map StoredValue.toJson) := legible_value.array 2
  have hfields : ∀ f ∈ StoredKey.jsonFields, Delimited f.2 := by
    simp only [StoredKey.jsonFields, List.forall_mem_cons]
    exact ⟨legible_string.delimited _, hvalues.delimited _, List.forall_mem_nil _⟩
  obtain ⟨htold, hrests⟩ := object_cancel hfields 1 hforms
  simp only [StoredKey.jsonFields, List.forall_mem_cons] at htold
  obtain ⟨hpath, hsame, -⟩ := htold
  refine ⟨?_, hrests⟩
  rw [StoredKey.mk.injEq]
  exact ⟨legible_string.injective hpath, hvalues.injective hsame⟩

end JsonText

/-- **A snapshot loses nothing**: two stores have the same one only if they have the same keys, in
the same order, each with its values in their order, with their names, types and data. -/
theorem MemoryStore.toJson_eq_iff (store store' : MemoryStore) :
    store.toJson = store'.toJson ↔ store.keys = store'.keys := by
  constructor
  · intro hforms
    exact (JsonText.legible_key.array 0).injective hforms
  · intro hkeys
    rw [toJson, toJson, hkeys]

end RegistryText
