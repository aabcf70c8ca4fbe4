import Phrasebook.Catalog
import Phrasebook.Proofs.Text.Runs
import Phrasebook.Source.Calls

/-!
# Signatures and blanks

A signature stands for the words of a call, which are the runs of its text between blanks.  How
the words are set apart leaves no trace in it.
-/

namespace Phrasebook.Source

open Text

/-- The text of a call. -/
def CallExpression.text (call : CallExpression) : List Char :=
  call.start.take (call.start.length - call.stop.length)

namespace File

variable {text other : List Char} {call again : CallExpression} {names : List String}

/-- Two texts have the same words: the longest runs without blanks are the same, in order. -/
def SameWords (text other : List Char) : Prop :=
  ∃ words, HasRuns isBlank text words ∧ HasRuns isBlank other words

theorem sameWords_iff : SameWords text other ↔ runs isBlank text = runs isBlank other := by
  simp only [SameWords, hasRuns_iff]
  constructor
  · rintro ⟨words, same, sameOther⟩
    exact same.trans sameOther.symm
  · intro same
    exact ⟨_, rfl, same.symm⟩

theorem toList_collapse (text : List Char) :
    (collapse text).toList = [' '].intercalate (runs isBlank text) := by
  rw [collapse, String.toList_intercalate, List.map_map]
  simp

/-- A collapsed text has the words of the text. -/
theorem runs_collapse (text : List Char) :
    runs isBlank (collapse text).toList = runs isBlank text := by
  have blank : isBlank ' ' = true := by decide
  rw [toList_collapse, runs_intercalate blank fun _ => mem_runs]

theorem collapse_eq_iff : collapse text = collapse other ↔ SameWords text other := by
  rw [sameWords_iff]
  constructor
  · intro same
    rw [← runs_collapse text, same, runs_collapse]
  · intro same
    rw [collapse, same, collapse]

/-- A call that passes no literal key passes its collapsed text. -/
theorem eq_collapse_of_key? {signature : String}
    (key : key? names call = some (.unknown signature)) : signature = collapse call.text := by
  unfold key? at key
  split at key
  · split at key
    · split at key
      · split at key
        · exact (CallKey.unknown.inj (Option.some.inj key)).symm
        · cases key
      · exact (CallKey.unknown.inj (Option.some.inj key)).symm
    · cases key
  · cases key

/-- Texts are collapsed to the same if they have the same words.  A blank in a collapsed text is
a single space between two other characters, and to collapse it again changes nothing.  So calls
that pass no literal key have the same signature if they differ only in the blanks between their
words: one place in a bucket, or one expansion, serves both. -/
theorem signatures_stand_for_words (text other : List Char) (names : List String)
    (call again : CallExpression) :
    (collapse text = collapse other ↔ SameWords text other) ∧
      (∀ front c back, (collapse text).toList = front ++ c :: back → isBlank c = true →
        c = ' ' ∧ (∃ before ∈ front.getLast?, isBlank before = false) ∧
          ∃ after ∈ back.head?, isBlank after = false) ∧
      SameWords (collapse text).toList text ∧
      collapse (collapse text).toList = collapse text ∧
      ∀ signature later, key? names call = some (.unknown signature) →
        key? names again = some (.unknown later) →
          (signature = later ↔ SameWords call.text again.text) ∧
            (SameWords call.text again.text → ∀ catalog : Catalog,
              catalog.addUnknown signature = catalog.addUnknown later) := by
  have same : SameWords (collapse text).toList text := sameWords_iff.mpr (runs_collapse text)
  refine ⟨collapse_eq_iff, ?_, same, collapse_eq_iff.mpr same, ?_⟩
  · intro front c back joined blank
    rw [toList_collapse] at joined
    have space : isBlank ' ' = true := by decide
    exact alone_of_intercalate space (fun _ => mem_runs) joined blank
  · intro signature later key keyAgain
    have stands : signature = later ↔ SameWords call.text again.text := by
      rw [eq_collapse_of_key? key, eq_collapse_of_key? keyAgain, collapse_eq_iff]
    refine ⟨stands, ?_⟩
    intro words catalog
    rw [stands.mpr words]

/-- A call of `t` with a text, in front of a semicolon. -/
def callOf (text : String) : CallExpression :=
  ⟨text.toList ++ [';'], [';'], .ident "t", [.ident "key"]⟩

/-- A call on one line, and over three with other blanks. -/
theorem spread_call_has_its_signature :
    let call := callOf "t( key )"
    let again := callOf "t(\n\tkey\u3000\r\n)"
    SameWords call.text again.text ∧ call.text ≠ again.text ∧
      (∃ signature, key? ["t"] call = some (.unknown signature) ∧
        key? ["t"] again = some (.unknown signature)) ∧
      (collapse call.text).toList = "t(".toList ++ ' ' :: "key )".toList ∧
      ∃ before ∈ "t(".toList.getLast?, isBlank before = false := by
  intro call again
  have words : SameWords call.text again.text := sameWords_iff.mpr (by decide +kernel)
  have key : key? ["t"] call = some (.unknown (collapse call.text)) := by decide +kernel
  have keyAgain : key? ["t"] again = some (.unknown (collapse again.text)) := by decide +kernel
  have joined : (collapse call.text).toList = "t(".toList ++ ' ' :: "key )".toList := by
    decide +kernel
  obtain ⟨_, alone, _, _, calls⟩ :=
    signatures_stand_for_words call.text again.text ["t"] call again
  refine ⟨words, by decide +kernel, ⟨_, key, ?_⟩, joined, ?_⟩
  · rw [keyAgain, (calls _ _ key keyAgain).1.mpr words]
  · exact (alone "t(".toList ' ' "key )".toList joined (by decide)).2.1

end File
end Phrasebook.Source
