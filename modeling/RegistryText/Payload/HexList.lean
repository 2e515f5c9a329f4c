import RegistryText.Text.Blank
import RegistryText.Text.Hex

/-!
# Lists of bytes in hexadecimal

A list of bytes is written as one or two hexadecimal digits per byte with a
comma between each two.  Blanks may stand around every byte, a comma may follow
the last one, and a `;` begins a comment.  **A backslash at the end of a line
continues the list** on the next line; only blanks and a comment may follow it.
-/

namespace RegistryText.HexList

/-- How a well-formed line of a list ends. -/
inductive Ending where
  /-- The list ends with the line. -/
  | complete
  /-- The list goes on in the next line. -/
  | continued
  deriving DecidableEq, Repr

/-- Read a byte of one or two digits, the first being `c`, and return it with
the rest of the text. -/
def readByte? (c : Char) (rest : Text) : Option (UInt8 × Text) :=
  match hexValue? c with
  | none => none
  | some high =>
      match rest with
      | [] => some (UInt8.ofNat high, [])
      | d :: rest' =>
          match hexValue? d with
          | some low => some (UInt8.ofNat (16 * high + low), rest')
          | none => some (UInt8.ofNat high, d :: rest')

theorem length_of_readByte? {c : Char} {rest more : Text} {b : UInt8}
    (h : readByte? c rest = some (b, more)) : more.length ≤ rest.length := by
  unfold readByte? at h
  split at h
  · cases h
  · split at h
    · cases h; simp
    · split at h <;> cases h <;> simp

theorem length_skipBlanks_le (t : Text) : t.skipBlanks.length ≤ t.length := by
  induction t with
  | nil => simp [Text.skipBlanks]
  | cons c t ih =>
      simp only [Text.skipBlanks, List.dropWhile_cons] at ih ⊢
      split
      · exact Nat.le_succ_of_le ih
      · simp

/-- What is found at the start of a line of a list. -/
inductive Item where
  /-- A byte and the comma behind it. -/
  | byte (b : UInt8) (rest : Text)
  /-- The end of the line, behind a last byte or none. -/
  | stop (ending : Ending) (last : Bytes)
  /-- A fault, behind a byte or none. -/
  | fault (last : Bytes)
  deriving DecidableEq, Repr

/-- Find the first item of a line. -/
def item (line : Text) : Item :=
  match line.skipBlanks with
  | [] => .stop .complete []
  | c :: rest =>
      if c = ';' then .stop .complete []
      else if c = '\\' then
        if (Text.skipBlanks rest).isEmptyOrComment then .stop .continued [] else .fault []
      else match readByte? c rest with
        | none => .fault []
        | some (b, behind) =>
            match behind.skipBlanks with
            | [] => .stop .complete [b]
            | d :: more =>
                if d = ';' then .stop .complete [b]
                else if d = ',' then .byte b more
                else .fault [b]

theorem length_of_item {line rest : Text} {b : UInt8} (h : item line = .byte b rest) :
    rest.length < line.length := by
  have h1 := length_skipBlanks_le line
  unfold item at h
  split at h
  · cases h
  next c more hline =>
    rw [hline] at h1
    split at h
    · cases h
    split at h
    · split at h <;> cases h
    split at h
    · cases h
    next b' behind hbyte =>
      have h2 := length_of_readByte? hbyte
      have h3 := length_skipBlanks_le behind
      split at h
      · cases h
      next d more' hbehind =>
        rw [hbehind] at h3
        split at h
        · cases h
        split at h
        · cases h
          simp only [List.length_cons] at h1 h3
          omega
        · cases h

/-- Read one line of a list: how it ends, nothing if it is malformed, and the
bytes in front of its end or its first fault. -/
def readLine (line : Text) : Option Ending × Bytes :=
  match h : item line with
  | .stop ending last => (some ending, last)
  | .fault last => (none, last)
  | .byte b rest =>
      have : rest.length < line.length := length_of_item h
      let r := readLine rest
      (r.1, b :: r.2)
termination_by line.length

/-- The written form of a list: two lower case digits a byte, commas between
them. -/
def write (bytes : Bytes) : Text :=
  Text.joinWith [','] (bytes.map Text.hexByte)

example : readLine "0, 1 ,ab,FF, ; note".toList = (some .complete, [0, 1, 0xAB, 0xFF]) := by
  decide +kernel

example : readLine "01,02,\\ ; more".toList = (some .continued, [1, 2]) := by
  decide +kernel

example : readLine "01,,02".toList = (none, [1]) := by
  decide +kernel

end RegistryText.HexList
