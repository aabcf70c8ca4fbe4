import Mathlib.Data.List.Basic
import Phrasebook.Source.Token

/-!
# What tokens leave of a text

Reading a token leaves less of the text, or as much.  A punctuator is never empty.
-/

namespace Phrasebook.Source
namespace Lexeme

variable {text rest : List Char}

theorem length_skip (blank : Blank) (newline : Bool) (text : List Char) :
    (skip blank newline text).rest.length ≤ text.length := by
  fun_induction skip with
  | _ => simp_all <;> omega

theorem length_hexDigits? {count n : Nat} (read : hexDigits? count text = some (n, rest)) :
    rest.length ≤ text.length := by
  unfold hexDigits? at read
  dsimp only at read
  split at read
  · obtain ⟨_, _, equal⟩ := Option.map_eq_some_iff.mp read
    cases equal
    simp
  · cases read

theorem length_codePoint? {n : Nat} (read : codePoint? text = some (n, rest)) :
    rest.length ≤ text.length := by
  unfold codePoint? at read
  split at read
  · dsimp only at read
    split at read
    · rename_i after behind
      obtain ⟨_, _, equal⟩ := Option.map_eq_some_iff.mp read
      cases equal
      have length := congrArg List.length behind
      simp only [List.length_drop, List.length_cons] at length ⊢
      omega
    · cases read
  · exact length_hexDigits? read

theorem length_readEscape {codes : List Nat} (read : readEscape text = some (codes, rest)) :
    rest.length ≤ text.length := by
  unfold readEscape at read
  split at read
  all_goals try (cases read; simp; done)
  · cases read
  · obtain ⟨⟨n, after⟩, digits, equal⟩ := Option.map_eq_some_iff.mp read
    cases equal
    have shorter := length_hexDigits? digits
    simp only [List.length_cons]
    omega
  · obtain ⟨⟨n, after⟩, digits, equal⟩ := Option.map_eq_some_iff.mp read
    cases equal
    have shorter := length_codePoint? digits
    simp only [List.length_cons]
    omega
  · cases read
    simp only [List.length_cons]
    omega
  · split at read
    · cases read
      simp
    · split at read
      · cases read
        simp only [List.length_drop, List.length_cons]
        omega
      · cases read
        simp

theorem length_readName {fuel : Nat} {first escaped spelled : Bool} {before name : List Char}
    (read : readName fuel first before escaped text = some (name, spelled, rest)) :
    rest.length ≤ text.length := by
  induction fuel generalizing first before escaped text with
  | zero =>
      cases read
      exact Nat.le_refl _
  | succ fuel ih =>
      unfold readName at read
      extract_lets fits at read
      split at read
      · split at read
        · rename_i after code
          dsimp only at read
          split at read
          · have shorter := length_codePoint? code
            have onward := ih read
            simp only [List.length_cons]
            omega
          · cases read
        · cases read
      · cases read
      · split at read
        · have onward := ih read
          simp only [List.length_cons]
          omega
        · cases read
          exact Nat.le_refl _
      · cases read
        exact Nat.le_refl _

theorem length_readString {fuel : Nat} {quote : Char} {before codes : List Nat}
    (read : readString quote fuel before text = some (codes, rest)) :
    rest.length ≤ text.length := by
  induction fuel generalizing before text with
  | zero => cases read
  | succ fuel ih =>
      cases text with
      | nil => cases read
      | cons c after =>
          rw [readString] at read
          rw [List.length_cons]
          split at read
          · cases read
            omega
          · split at read
            · obtain ⟨⟨escape, behind⟩, escaped, read⟩ := Option.bind_eq_some_iff.mp read
              have shorter := length_readEscape escaped
              have onward := ih read
              omega
            · split at read
              · cases read
              · have onward := ih read
                omega

theorem length_dropDigits (isDigit : Char → Bool) (text : List Char) :
    (dropDigits isDigit text).length ≤ text.length :=
  (List.dropWhile_sublist _).length_le

theorem length_basedDigits? {isDigit : Char → Bool} (read : basedDigits? isDigit text = some rest) :
    rest.length ≤ text.length := by
  have shorter := length_dropDigits isDigit text
  unfold basedDigits? at read
  dsimp only at read
  split at read
  · split at read
    · rename_i after digits
      cases read
      rw [digits, List.length_cons] at shorter
      omega
    · cases read
      exact shorter
  · cases read

theorem length_exponent? (read : exponent? text = some rest) : rest.length ≤ text.length := by
  unfold exponent? at read
  extract_lets digits signed at read
  have shorterDigits : ∀ {text}, digits text = some rest → rest.length ≤ text.length := by
    intro text read
    unfold digits at read
    split at read
    · split at read
      · cases read
        exact length_dropDigits ..
      · cases read
    · cases read
  have shorterSigned : ∀ {text}, signed text = some rest → rest.length ≤ text.length := by
    intro text read
    unfold signed at read
    split at read
    · exact Nat.le_succ_of_le (shorterDigits read)
    · exact Nat.le_succ_of_le (shorterDigits read)
    · exact shorterDigits read
  split at read
  · exact Nat.le_succ_of_le (shorterSigned read)
  · exact Nat.le_succ_of_le (shorterSigned read)
  · cases read
    exact Nat.le_refl _

theorem length_readNumber (read : readNumber text = some rest) : rest.length ≤ text.length := by
  have based : ∀ {isDigit : Char → Bool} {first second : Char} {after : List Char},
      basedDigits? isDigit after = some rest → rest.length ≤ (first :: second :: after).length :=
    fun read => Nat.le_succ_of_le (Nat.le_succ_of_le (length_basedDigits? read))
  unfold readNumber at read
  split at read
  · exact based read
  · exact based read
  · exact based read
  · exact based read
  · exact based read
  · exact based read
  · have shorter := length_dropDigits Char.isDigit text
    split at read
    · rename_i after digits
      cases read
      rw [digits] at shorter
      exact Nat.le_of_succ_le shorter
    · split at read
      · cases read
        exact shorter
      · split at read
        · rename_i after digits
          have onward := length_exponent? read
          have fraction := length_dropDigits Char.isDigit after
          rw [digits, List.length_cons] at shorter
          omega
        · have onward := length_exponent? read
          omega

/-! ## Tokens -/

theorem length_punctuator? {name : String} (found : punctuator? text = some name) :
    (text.drop name.length).length < text.length := by
  have nonempty : ∀ name ∈ punctuators, name.toList ≠ [] := by decide
  unfold punctuator? at found
  split at found
  · split at found
    · cases found
      simp [show "?".length = 1 from rfl]
    · cases found
      simp [show "?.".length = 2 from rfl]
  · have member := List.mem_of_find?_eq_some found
    have begins := List.find?_some found
    have length := (List.isPrefixOf_iff_prefix.mp begins).length_le
    have positive := List.length_pos_iff.mpr (nonempty name member)
    rw [String.length_toList] at length positive
    rw [List.length_drop]
    omega

/-- A token leaves less of the text, or as much, and a punctuator leaves less. -/
theorem length_readToken (size : Nat) (text : List Char) :
    (readToken size text).2.length ≤ text.length ∧
      ∀ name, (readToken size text).1 = .punct name →
        (readToken size text).2.length < text.length := by
  cases text with
  | nil => exact ⟨Nat.le_refl _, by simp [readToken]⟩
  | cons c rest =>
      have bad : rest.length ≤ (c :: rest).length := Nat.le_succ _
      rw [readToken]
      split
      · split
        · rename_i after read
          exact ⟨Nat.le_succ_of_le (length_readString read), by simp⟩
        · exact ⟨bad, by simp⟩
      · split
        · split
          · rename_i after read
            split
            · exact ⟨length_readNumber read, by simp⟩
            · exact ⟨length_readNumber read, by simp⟩
          · exact ⟨bad, by simp⟩
        · split
          · split
            · split
              · rename_i after read
                exact ⟨Nat.le_succ_of_le (length_readName read), by simp⟩
              · exact ⟨bad, by simp⟩
            · exact ⟨bad, by simp⟩
          · split
            · split
              · rename_i after read
                dsimp only
                split
                · exact ⟨length_readName read, by simp⟩
                · exact ⟨length_readName read, by simp⟩
              · exact ⟨bad, by simp⟩
            · split
              · rename_i found
                have shorter := length_punctuator? found
                exact ⟨Nat.le_of_lt shorter, fun _ _ => shorter⟩
              · exact ⟨bad, by simp⟩

/-- A lexeme as it is read from a text: it begins there or behind blanks, its rest is what it
leaves, and a punctuator is not empty. -/
structure Sound (lexeme : Lexeme) : Prop where
  rest : lexeme.rest.length ≤ lexeme.start.length
  punct : ∀ name, lexeme.token = .punct name → lexeme.rest.length < lexeme.start.length

theorem sound_nextFrom {size fuel : Nat} {start : Option (List Char)} {newline : Bool}
    (begins : ∀ begun ∈ start, text.length ≤ begun.length) :
    (nextFrom size fuel start newline text).Sound ∧
      (nextFrom size fuel start newline text).start.length ≤ (start.getD text).length := by
  induction fuel generalizing start newline text with
  | zero =>
      refine ⟨⟨Nat.le_refl _, by simp [nextFrom]⟩, ?_⟩
      cases start with
      | none => exact Nat.le_refl _
      | some begun => exact begins begun rfl
  | succ fuel ih =>
      rw [nextFrom]
      generalize skipped : skip .between newline text = gap
      generalize counts : start.getD gap.rest = place
      have shorter : gap.rest.length ≤ text.length := skipped ▸ length_skip ..
      have behind : gap.rest.length ≤ place.length := by
        subst counts
        cases start with
        | none => exact Nat.le_refl _
        | some begun => exact Nat.le_trans shorter (begins begun rfl)
      have placed : place.length ≤ (start.getD text).length := by
        subst counts
        cases start with
        | none => exact shorter
        | some begun => exact Nat.le_refl _
      -- After a comment in the manner of markup the token counts from the comment on.
      have onward : ∀ (newline : Bool) (rest : List Char), rest.length ≤ gap.rest.length →
          (nextFrom size fuel (some place) newline rest).Sound ∧
            (nextFrom size fuel (some place) newline rest).start.length ≤
              (start.getD text).length := by
        intro newline rest inside
        have next : (nextFrom size fuel (some place) newline rest).Sound ∧
            (nextFrom size fuel (some place) newline rest).start.length ≤ place.length :=
          ih (by rintro begun ⟨⟩; exact Nat.le_trans inside behind)
        exact ⟨next.1, Nat.le_trans next.2 placed⟩
      split
      · rename_i equal
        refine onward _ _ (Nat.le_trans (length_skip ..) ?_)
        rw [equal]
        exact Nat.le_add_right _ 4
      · rename_i equal _
        refine onward _ _ (Nat.le_trans (length_skip ..) ?_)
        rw [equal]
        exact Nat.le_add_right _ 3
      · obtain ⟨left, less⟩ := length_readToken size gap.rest
        refine ⟨⟨Nat.le_trans left behind, ?_⟩, placed⟩
        intro name punct
        dsimp only at punct ⊢
        split at punct
        · exact Nat.lt_of_lt_of_le (less name punct) behind
        · cases punct

/-- The next token of a text is read from it. -/
theorem sound_next (size : Nat) (newline : Bool) (text : List Char) :
    (next size newline text).Sound ∧ (next size newline text).start.length ≤ text.length :=
  sound_nextFrom (by simp)

theorem length_skipInterpreterLine (text : List Char) :
    (skipInterpreterLine text).length ≤ text.length := by
  unfold skipInterpreterLine
  split
  · exact (List.dropWhile_sublist _).length_le
  · exact Nat.le_refl _

theorem length_readRegex {inClass : Bool} (read : readRegex inClass text = some rest) :
    rest.length ≤ text.length := by
  fun_induction readRegex inClass text with
  | case1 => cases read
  | case2 => cases read
  | case3 inClass c after notBreak ih => exact Nat.le_add_right_of_le (Nat.le_succ_of_le (ih read))
  | case4 => cases read
  | case5 inClass after _ _ ih => exact Nat.le_succ_of_le (ih read)
  | case6 inClass after _ _ _ ih => exact Nat.le_succ_of_le (ih read)
  | case7 =>
      cases read
      exact Nat.le_succ_of_le (List.dropWhile_sublist _).length_le
  | case8 inClass c after _ _ _ _ _ ih => exact Nat.le_succ_of_le (ih read)

theorem length_readPiece {fuel : Nat} {valid : Bool} {piece : Piece}
    (read : readPiece fuel valid text = some piece) : piece.rest.length ≤ text.length := by
  fun_induction readPiece fuel valid text with
  | case1 => cases read
  | case2 => cases read
  | case3 =>
      cases read
      exact Nat.le_succ _
  | case4 =>
      cases read
      exact Nat.le_add_right _ 2
  | case5 => cases read
  | case6 fuel valid c after isOctal codes behind escape ih =>
      rw [escape] at read
      have shorter := length_readEscape escape
      exact Nat.le_succ_of_le (Nat.le_trans (ih read) shorter)
  | case7 fuel valid c after isOctal escape ih =>
      rw [escape] at read
      exact Nat.le_add_right_of_le (Nat.le_succ_of_le (ih read))
  | case8 fuel valid c after _ _ _ ih => exact Nat.le_succ_of_le (ih read)

end Lexeme
end Phrasebook.Source
