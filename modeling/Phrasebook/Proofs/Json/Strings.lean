import Phrasebook.Json.Lexeme
import Phrasebook.Json.Printer

/-!
# Strings read back

Every character is written so that the reader of strings finds it again, whatever follows.
-/

namespace Phrasebook.Json

variable {c : Char} {text rest : List Char}

/-- The two hexadecimal digits of a control character are read as its code. -/
theorem hexUnit_control {code : Nat} (control : code < 0x20) (rest : List Char) :
    Lexeme.hexUnit ('0' :: '0' :: Nat.digitChar (code / 16) :: Nat.digitChar (code % 16) :: rest) =
      .ok (code, rest) := by
  have digits : ∀ code < 0x20, Text.hexDigit? (Nat.digitChar (code / 16)) = some (code / 16) ∧
      Text.hexDigit? (Nat.digitChar (code % 16)) = some (code % 16) := by decide
  obtain ⟨high, low⟩ := digits code control
  have zero : Text.hexDigit? '0' = some 0 := by decide
  have whole : code / 16 * 16 + code % 16 = code := by omega
  simp [Lexeme.hexUnit, Lexeme.hexUnit?, zero, high, low, whole]

/-- The characters with an escape of their own. -/
def namedEscapes : List Char := ['"', '\\', '\x08', '\x0c', '\n', '\r', '\t']

theorem escaped_of_not_named (plain : c ∉ namedEscapes) :
    escaped c =
      if c.toNat < 0x20 then
        ['\\', 'u', '0', '0', Nat.digitChar (c.toNat / 16), Nat.digitChar (c.toNat % 16)]
      else [c] := by
  simp only [namedEscapes, List.mem_cons, List.not_mem_nil, or_false, not_or] at plain
  obtain ⟨quote, backslash, back, feed, line, carriage, tab⟩ := plain
  simp only [escaped, if_neg quote, if_neg backslash, if_neg back, if_neg feed, if_neg line,
    if_neg carriage, if_neg tab]

/-- A character is written as an escape that reads back, or as itself if the reader takes it
so. -/
theorem escaped_cases (c : Char) :
    (∃ tail, escaped c = '\\' :: tail ∧
        ∀ rest, Lexeme.escape (tail ++ rest) = .ok (c, rest)) ∨
      escaped c = [c] ∧ c ≠ '"' ∧ c ≠ '\\' ∧ 0x20 ≤ c.toNat := by
  by_cases named : c ∈ namedEscapes
  · left
    simp only [namedEscapes, List.mem_cons, List.not_mem_nil, or_false] at named
    rcases named with rfl | rfl | rfl | rfl | rfl | rfl | rfl <;>
      exact ⟨[_], rfl, fun rest => rfl⟩
  · rw [escaped_of_not_named named]
    by_cases control : c.toNat < 0x20
    · left
      rw [if_pos control]
      refine ⟨_, rfl, ?_⟩
      intro rest
      have notSurrogate : ¬ (0xDC00 ≤ c.toNat ∧ c.toNat ≤ 0xDFFF) := by omega
      have direct : c.toNat < 0xD800 ∨ 0xDBFF < c.toNat := by omega
      simp [Lexeme.escape, Lexeme.unicodeEscape, hexUnit_control control, bind, Except.bind,
        notSurrogate, direct]
    · right
      rw [if_neg control]
      simp only [namedEscapes, List.mem_cons, not_or] at named
      exact ⟨rfl, named.1, named.2.1, by omega⟩

theorem escaped_ne_nil (c : Char) : escaped c ≠ [] := by
  rcases escaped_cases c with ⟨tail, written, _⟩ | ⟨written, _⟩
  · simp [written]
  · simp [written]

/-- The reader of strings takes the text of a character for the character. -/
theorem stringBody_escaped (fuel : Nat) (read : List Char) (c : Char) (rest : List Char) :
    Lexeme.stringBody (fuel + 1) read (escaped c ++ rest) =
      Lexeme.stringBody fuel (c :: read) rest := by
  rcases escaped_cases c with ⟨tail, written, reads⟩ | ⟨written, notQuote, notBackslash, plain⟩
  · rw [written, List.cons_append, Lexeme.stringBody, if_neg (by decide), if_pos rfl, reads rest]
  · have printable : ¬ c.toNat < 0x20 := Nat.not_lt.mpr plain
    rw [written, List.cons_append, Lexeme.stringBody, if_neg notQuote, if_neg notBackslash,
      if_neg printable]
    rfl

theorem stringBody_flatMap (fuel : Nat) (read chars rest : List Char)
    (enough : chars.length < fuel) :
    Lexeme.stringBody fuel read (chars.flatMap escaped ++ '"' :: rest) =
      .ok (String.ofList (read.reverse ++ chars), rest) := by
  induction chars generalizing fuel read with
  | nil =>
      obtain ⟨fuel, rfl⟩ := Nat.exists_eq_succ_of_ne_zero (Nat.ne_of_gt enough)
      simp [Lexeme.stringBody]
  | cons c chars ih =>
      obtain ⟨fuel, rfl⟩ := Nat.exists_eq_succ_of_ne_zero (Nat.ne_zero_of_lt enough)
      rw [List.flatMap_cons, List.append_assoc, stringBody_escaped,
        ih fuel (c :: read) (by simpa using enough)]
      simp

theorem length_le_flatMap_escaped (chars : List Char) :
    chars.length ≤ (chars.flatMap escaped).length := by
  induction chars with
  | nil => simp
  | cons c chars ih =>
      have some := List.length_pos_iff.mpr (escaped_ne_nil c)
      rw [List.flatMap_cons, List.length_append, List.length_cons]
      omega

/-- A string in quotes is read back. -/
theorem string_quoted (s : String) (rest : List Char) :
    Lexeme.string (s.toList.flatMap escaped ++ '"' :: rest) = .ok (s, rest) := by
  have enough := length_le_flatMap_escaped s.toList
  rw [Lexeme.string, stringBody_flatMap _ _ _ _ (by rw [List.length_append]; omega)]
  simp

end Phrasebook.Json
