import Mathlib.Data.List.Infix
import Phrasebook.Glob.Pattern

/-!
# What patterns match

A run of wildcards stands for parts of a text that can be said without following the match character
by character: a text ends as the pattern does, or has an end at a slash that the rest of the pattern
matches.
-/

namespace Phrasebook.Glob

variable {tokens : List Token} {text front back chars : List Char} {test : List Char → Bool}

theorem anyEnd_iff : anyEnd test text = true ↔ ∃ back, back <:+ text ∧ test back = true := by
  induction text with
  | nil => simp [anyEnd]
  | cons c rest ih =>
      rw [anyEnd, Bool.or_eq_true, ih]
      constructor
      · rintro (whole | ⟨back, ends, matched⟩)
        · exact ⟨c :: rest, List.suffix_rfl, whole⟩
        · exact ⟨back, ends.trans (List.suffix_cons c rest), matched⟩
      · rintro ⟨back, ends, matched⟩
        rcases List.suffix_cons_iff.mp ends with rfl | ends
        · exact .inl matched
        · exact .inr ⟨back, ends, matched⟩

theorem anyComponentEnd_iff :
    anyComponentEnd test text = true ↔
      test [] = true ∨ ∃ front back, text = front ++ '/' :: back ∧ test back = true := by
  induction text with
  | nil => simp [anyComponentEnd]
  | cons c rest ih =>
      rw [anyComponentEnd, Bool.or_eq_true, Bool.and_eq_true, beq_iff_eq, ih]
      constructor
      · rintro (⟨rfl, matched⟩ | nothing | ⟨front, back, rfl, matched⟩)
        · exact .inr ⟨[], rest, rfl, matched⟩
        · exact .inl nothing
        · exact .inr ⟨c :: front, back, rfl, matched⟩
      · rintro (nothing | ⟨front, back, equal, matched⟩)
        · exact .inr (.inl nothing)
        · cases front with
          | nil =>
              cases equal
              exact .inl ⟨rfl, matched⟩
          | cons d front =>
              cases equal
              exact .inr (.inr ⟨front, back, rfl, matched⟩)

theorem matchTokens_char_cons {c d : Char} :
    matchTokens (.char c :: tokens) (d :: text) = (d == c && matchTokens tokens text) :=
  rfl

/-- Characters stand for themselves. -/
theorem matchTokens_chars :
    matchTokens (chars.map .char ++ tokens) text = true ↔
      ∃ back, text = chars ++ back ∧ matchTokens tokens back = true := by
  induction chars generalizing text with
  | nil => simp
  | cons c rest ih =>
      cases text with
      | nil => simp [matchTokens]
      | cons d text =>
          rw [List.map_cons, List.cons_append, matchTokens_char_cons, Bool.and_eq_true, ih,
            beq_iff_eq]
          constructor
          · rintro ⟨rfl, back, rfl, matched⟩
            exact ⟨back, rfl, matched⟩
          · rintro ⟨back, equal, matched⟩
            cases equal
            exact ⟨rfl, back, rfl, matched⟩

theorem matchTokens_anySequence :
    matchTokens (.anySequence :: tokens) text = true ↔
      ∃ back, back <:+ text ∧ matchTokens tokens back = true := by
  rw [matchTokens, anyEnd_iff]

/-- Any number of components stand in front of the whole text, of what follows a slash, or of
nothing. -/
theorem matchTokens_anyComponents :
    matchTokens (.anyComponents :: tokens) text = true ↔
      matchTokens tokens text = true ∨ matchTokens tokens [] = true ∨
        ∃ front back, text = front ++ '/' :: back ∧ matchTokens tokens back = true := by
  rw [matchTokens, Bool.or_eq_true, anyComponentEnd_iff]

theorem matchTokens_chars_iff : matchTokens (chars.map .char) text = true ↔ text = chars := by
  rw [← List.append_nil (chars.map _), matchTokens_chars]
  constructor
  · rintro ⟨rest, rfl, nothing⟩
    rw [matchTokens, List.isEmpty_iff] at nothing
    rw [nothing, List.append_nil]
  · rintro rfl
    exact ⟨[], (List.append_nil _).symm, rfl⟩

/-- A pattern for any names with an ending matches what ends so. -/
theorem matchTokens_ending :
    matchTokens (.anyComponents :: .anySequence :: chars.map .char) text = true ↔
      chars <:+ text := by
  have ending : ∀ text, matchTokens (.anySequence :: chars.map .char) text = true ↔
      chars <:+ text := by
    intro text
    simp only [matchTokens_anySequence, matchTokens_chars_iff, exists_eq_right]
  rw [matchTokens_anyComponents, ending, ending]
  simp only [ending]
  constructor
  · rintro (ends | ends | ⟨front, back, rfl, ends⟩)
    · exact ends
    · exact ends.trans (List.nil_suffix ..)
    · exact ends.trans ((List.suffix_cons '/' back).trans (List.suffix_append ..))
  · exact .inl

/-- A pattern for all below directories of a name matches a text in which the name stands between
two slashes, if one is added in front. -/
theorem matchTokens_directory {name : List Char} :
    matchTokens (.anyComponents :: ((name ++ ['/']).map .char ++ [.anyComponents])) text = true ↔
      ∃ before behind, '/' :: text = before ++ '/' :: (name ++ '/' :: behind) := by
  have all : ∀ text, matchTokens [.anyComponents] text = true := fun text =>
    matchTokens_anyComponents.mpr (.inr (.inl rfl))
  have inside : ∀ text,
      matchTokens ((name ++ ['/']).map .char ++ [.anyComponents]) text = true ↔
        ∃ behind, text = name ++ '/' :: behind := by
    intro text
    simp only [matchTokens_chars, all, and_true, List.append_assoc, List.singleton_append]
  rw [matchTokens_anyComponents, inside, inside]
  simp only [inside]
  constructor
  · rintro (⟨behind, rfl⟩ | ⟨behind, nothing⟩ | ⟨front, _, rfl, behind, rfl⟩)
    · exact ⟨[], behind, rfl⟩
    · simp at nothing
    · exact ⟨'/' :: front, behind, rfl⟩
  · rintro ⟨before, behind, equal⟩
    cases before with
    | nil => exact .inl ⟨behind, (List.cons.inj equal).2⟩
    | cons c front => exact .inr (.inr ⟨front, _, (List.cons.inj equal).2, behind, rfl⟩)

/-- Whether a pattern begins with a wildcard that stands for any number of directories. -/
def Pattern.Floats (pattern : Pattern) : Prop :=
  pattern.tokens.head? = some .anyComponents ∨ pattern.tokens.head? = some .anySequence

/-- A pattern with a leading wildcard matches below any directory what it matches by itself. -/
theorem Pattern.Floats.matchesText {pattern : Pattern} (floats : pattern.Floats)
    {directory text : String} (matched : pattern.matchesText text = true) :
    pattern.matchesText (directory ++ "/" ++ text) = true := by
  obtain ⟨tokens⟩ := pattern
  have whole : (directory ++ "/" ++ text).toList = directory.toList ++ '/' :: text.toList := by simp
  unfold Pattern.matchesText at matched ⊢
  rw [whole]
  rcases floats with leading | leading
  · obtain ⟨rest, rfl⟩ := List.head?_eq_some_iff.mp leading
    rw [matchTokens_anyComponents] at matched ⊢
    rcases matched with matched | matched | ⟨front, back, equal, matched⟩
    · exact .inr (.inr ⟨_, _, rfl, matched⟩)
    · exact .inr (.inl matched)
    · refine .inr (.inr ⟨directory.toList ++ '/' :: front, back, ?_, matched⟩)
      rw [equal, List.append_assoc, List.cons_append]
  · obtain ⟨rest, rfl⟩ := List.head?_eq_some_iff.mp leading
    rw [matchTokens_anySequence] at matched ⊢
    obtain ⟨back, ends, matched⟩ := matched
    exact ⟨back, (ends.trans (List.suffix_cons ..)).trans (List.suffix_append ..), matched⟩

/-- A pattern that begins with no such wildcard matches nothing that begins with a character that
its first piece does not stand for. -/
theorem Pattern.matchesText_eq_false {pattern : Pattern} (fixed : ¬ pattern.Floats) {c : Char}
    (refused : ∀ token ∈ pattern.tokens.head?, token.accepts c = false) {word : String}
    (begins : word.toList.head? = some c) : pattern.matchesText word = false := by
  obtain ⟨tokens⟩ := pattern
  obtain ⟨text, whole⟩ := List.head?_eq_some_iff.mp begins
  unfold Pattern.matchesText
  rw [whole]
  cases tokens with
  | nil => rfl
  | cons token rest =>
      have refused : token.accepts c = false := refused token rfl
      cases token with
      | anySequence => exact absurd (.inr rfl) fixed
      | anyComponents => exact absurd (.inl rfl) fixed
      | char d => rw [matchTokens_char_cons, show (c == d) = false from refused, Bool.false_and]
      | anyChar => cases refused
      | within specifiers => exact (congrArg (· && _) refused).trans (Bool.false_and _)
      | except specifiers => exact (congrArg (· && _) refused).trans (Bool.false_and _)

end Phrasebook.Glob
