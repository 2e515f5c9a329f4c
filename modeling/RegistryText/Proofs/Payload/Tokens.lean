import Mathlib.Data.List.Forall2
import RegistryText.Proofs.Payload.Grammar

/-!
# Tokens of an escaped text

An escaped text is a row of *tokens*: a token is a character that is neither a
backslash nor a quote, or a backslash and the one character behind it, whatever
it is.  A quote behind a row of tokens closes the text, since no token begins
with one.

**A text is read exactly when it splits into tokens, a quote and a rest, and it
splits in one way only** (`read?_iff_splits`).  The tokens tell what the text
means and which of its escapes are unknown.  So every writer is read back that
escapes backslashes and quotes, whether it escapes line feeds, carriage returns
and characters of code 0 or not.
-/

namespace RegistryText.Escaped

/-- A token of an escaped text: a character that stands for itself, or a
backslash and the character behind it. -/
inductive Token where
  | plain (c : Char) (hplain : c ≠ '\\' ∧ c ≠ '"')
  | escape (c : Char)
  deriving DecidableEq

namespace Token

/-- How a token is written. -/
def written : Token → Text
  | plain c _ => [c]
  | escape c => ['\\', c]

/-- The character that a token means. -/
def meaning : Token → Char
  | plain c _ => c
  | escape c =>
      if c = 'n' then '\n' else if c = 'r' then '\r' else if c = '0' then '\x00' else c

/-- The character of an escape that is none of the known ones. -/
def unknown? : Token → Option Char
  | plain _ _ => none
  | escape c => if c ∈ ['n', 'r', '0', '\\', '"'] then none else some c

theorem known_escape {c m : Char} (h : meaning? c = some m) :
    (escape c).meaning = m ∧ (escape c).unknown? = none := by
  unfold meaning? at h
  grind [meaning, unknown?]

theorem unknown_escape {c : Char} (h : meaning? c = none) :
    (escape c).meaning = c ∧ (escape c).unknown? = some c := by
  unfold meaning? at h
  grind [meaning, unknown?]

end Token

/-- A text in front of which an opening quote stands splits into tokens, the quote
that closes it and a rest. -/
def Splits (t : Text) (tokens : List Token) (rest : Text) : Prop :=
  t = tokens.flatMap Token.written ++ '"' :: rest

/-! ### What the tokens mean -/

/-- Every escaped text is a row of tokens. -/
theorem Means.exists_tokens {written t : Text} {unknown : List Char}
    (h : Means written t unknown) : ∃ tokens : List Token,
      written = tokens.flatMap Token.written ∧ t = tokens.map Token.meaning ∧
        unknown = tokens.filterMap Token.unknown? := by
  induction h with
  | nil => exact ⟨[], rfl, rfl, rfl⟩
  | @plain c written t unknown hquote hslash tail ih =>
      obtain ⟨tokens, rfl, rfl, rfl⟩ := ih
      exact ⟨.plain c ⟨hslash, hquote⟩ :: tokens, rfl, rfl, rfl⟩
  | @known c d written t unknown hmeaning tail ih =>
      obtain ⟨tokens, rfl, rfl, rfl⟩ := ih
      obtain ⟨hmeans, hknown⟩ := Token.known_escape hmeaning
      refine ⟨.escape d :: tokens, rfl, ?_, ?_⟩
      · rw [List.map_cons, hmeans]
      · rw [List.filterMap_cons_none hknown]
  | @unknown d written t unknown hmeaning tail ih =>
      obtain ⟨tokens, rfl, rfl, rfl⟩ := ih
      obtain ⟨hmeans, hunknown⟩ := Token.unknown_escape hmeaning
      refine ⟨.escape d :: tokens, rfl, ?_, ?_⟩
      · rw [List.map_cons, hmeans]
      · rw [List.filterMap_cons_some hunknown]

/-- Every row of tokens is an escaped text. -/
theorem means_tokens (tokens : List Token) :
    Means (tokens.flatMap Token.written) (tokens.map Token.meaning)
      (tokens.filterMap Token.unknown?) := by
  induction tokens with
  | nil => exact .nil
  | cons token tokens ih =>
      cases token with
      | plain c hplain => exact .plain hplain.2 hplain.1 ih
      | escape c =>
          cases hmeaning : meaning? c with
          | some m =>
              obtain ⟨hmeans, hknown⟩ := Token.known_escape hmeaning
              rw [List.map_cons, hmeans, List.filterMap_cons_none hknown]
              exact .known hmeaning ih
          | none =>
              obtain ⟨hmeans, hunknown⟩ := Token.unknown_escape hmeaning
              rw [List.map_cons, hmeans, List.filterMap_cons_some hunknown]
              exact .unknown hmeaning ih

/-- What is read is what the tokens in front of the closing quote mean. -/
theorem read?_eq_some_iff_tokens {t : Text} {u : Unescaped} :
    read? t = some u ↔ ∃ tokens, Splits t tokens u.rest ∧
      u.text = tokens.map Token.meaning ∧ u.unknown = tokens.filterMap Token.unknown? := by
  rw [read?_eq_some_iff]
  constructor
  · rintro ⟨written, ht, hmeans⟩
    obtain ⟨tokens, rfl, htext, hunknown⟩ := hmeans.exists_tokens
    exact ⟨tokens, ht, htext, hunknown⟩
  · rintro ⟨tokens, ht, htext, hunknown⟩
    refine ⟨tokens.flatMap Token.written, ht, ?_⟩
    rw [htext, hunknown]
    exact means_tokens tokens

/-! ### One way to split -/

/-- No token begins with a quote. -/
theorem Token.written_append_ne (token : Token) (t rest : Text) :
    token.written ++ t ≠ '"' :: rest := by
  intro h
  cases token with
  | plain c hplain =>
      obtain ⟨hquote, -⟩ := List.cons.inj h
      exact hplain.2 hquote
  | escape c =>
      obtain ⟨hquote, -⟩ := List.cons.inj h
      exact absurd hquote (by decide)

/-- The characters at the start of a text tell the token that stands there. -/
theorem Token.written_append_inj {token token' : Token} {t t' : Text}
    (h : token.written ++ t = token'.written ++ t') : token = token' ∧ t = t' := by
  cases token with
  | plain c hplain =>
      cases token' with
      | plain c' hplain' =>
          obtain ⟨rfl, rfl⟩ := List.cons.inj h
          exact ⟨rfl, rfl⟩
      | escape c' => exact absurd (List.cons.inj h).1 hplain.1
  | escape c =>
      cases token' with
      | plain c' hplain' => exact absurd (List.cons.inj h).1.symm hplain'.1
      | escape c' =>
          obtain ⟨-, hbehind⟩ := List.cons.inj h
          obtain ⟨rfl, rfl⟩ := List.cons.inj hbehind
          exact ⟨rfl, rfl⟩

/-- **A text splits in one way only.** -/
theorem Splits.unique {t rest rest' : Text} {tokens tokens' : List Token}
    (h : Splits t tokens rest) (h' : Splits t tokens' rest') : tokens = tokens' ∧ rest = rest' := by
  unfold Splits at h h'
  rw [h] at h'
  clear h
  -- token by token: where the one split ends, the other meets the same quote
  induction tokens generalizing tokens' with
  | nil =>
      cases tokens' with
      | nil => exact ⟨rfl, (List.cons.inj h').2⟩
      | cons token' tokens' =>
          rw [List.flatMap_cons, List.append_assoc] at h'
          exact absurd h'.symm (token'.written_append_ne _ _)
  | cons token tokens ih =>
      rw [List.flatMap_cons, List.append_assoc] at h'
      cases tokens' with
      | nil => exact absurd h' (token.written_append_ne _ _)
      | cons token' tokens' =>
          rw [List.flatMap_cons, List.append_assoc] at h'
          obtain ⟨rfl, hbehind⟩ := Token.written_append_inj h'
          obtain ⟨rfl, hrest⟩ := ih hbehind
          exact ⟨rfl, hrest⟩

/-! ### Writers -/

/-- The forms of a character: itself unless it is a backslash or a quote, and its escape if
it has one. -/
inductive Form : Char → Text → Prop
  | plain {c : Char} (hplain : c ≠ '\\' ∧ c ≠ '"') : Form c [c]
  | backslash : Form '\\' ['\\', '\\']
  | quote : Form '"' ['\\', '"']
  | lineFeed : Form '\n' ['\\', 'n']
  | carriageReturn : Form '\r' ['\\', 'r']
  | nul : Form '\x00' ['\\', '0']

/-- A text that is written in forms of its characters means itself, without unknown escapes. -/
theorem means_of_forms {t : Text} {forms : List Text} (h : List.Forall₂ Form t forms) :
    Means forms.flatten t [] := by
  induction h with
  | nil => exact .nil
  | cons hform tail ih =>
      cases hform with
      | plain hplain => exact .plain hplain.2 hplain.1 ih
      | backslash | quote | lineFeed | carriageReturn | nul => exact .known rfl ih

/-- **A text is read exactly when it splits into tokens, a quote and a rest**; it then splits
in one way only, and its tokens tell what is read.  Hence every text is read back that is
written in any forms of its characters. -/
theorem read?_iff_splits :
    (∀ (t : Text) (u : Unescaped), read? t = some u ↔ ∃ tokens, Splits t tokens u.rest ∧
      u.text = tokens.map Token.meaning ∧ u.unknown = tokens.filterMap Token.unknown?) ∧
    (∀ (t : Text) (tokens tokens' : List Token) (rest rest' : Text),
      Splits t tokens rest → Splits t tokens' rest' → tokens = tokens' ∧ rest = rest') ∧
    ∀ (t : Text) (forms : List Text) (rest : Text), List.Forall₂ Form t forms →
      read? (forms.flatten ++ '"' :: rest) = some ⟨t, rest, []⟩ := by
  refine ⟨fun t u => read?_eq_some_iff_tokens, ?_, ?_⟩
  · intro t tokens tokens' rest rest' h h'
    exact h.unique h'
  · intro t forms rest hforms
    exact (means_of_forms hforms).read? rest

/-- A text with a known and an unknown escape, a pair of backslashes and a quote behind its
closing quote: what is read of it, its only split, and one of its other written forms. -/
theorem read?_iff_splits_mixed :
    read? "a\\n\\\\\\q\"; \"b\"".toList = some ⟨"a\n\\q".toList, "; \"b\"".toList, ['q']⟩ ∧
    (∀ tokens rest, Splits "a\\n\\\\\\q\"; \"b\"".toList tokens rest →
      tokens = [.plain 'a' (by decide), .escape 'n', .escape '\\', .escape 'q']) ∧
    read? ([['a'], ['\n'], ['\\', '\\'], ['q']].flatten ++ '"' :: "; \"b\"".toList) =
      some ⟨"a\n\\q".toList, "; \"b\"".toList, []⟩ := by
  obtain ⟨hread, hunique, hwritten⟩ := read?_iff_splits
  refine ⟨?_, ?_, ?_⟩
  · refine (hread _ _).mpr ⟨[.plain 'a' (by decide), .escape 'n', .escape '\\', .escape 'q'], ?_⟩
    exact ⟨rfl, rfl, rfl⟩
  · intro tokens rest h
    exact (hunique _ _ [.plain 'a' (by decide), .escape 'n', .escape '\\', .escape 'q'] rest
      "; \"b\"".toList h rfl).1
  · refine hwritten "a\n\\q".toList _ _ ?_
    exact .cons (.plain (by decide)) (.cons (.plain (by decide)) (.cons .backslash
      (.cons (.plain (by decide)) .nil)))

end RegistryText.Escaped
