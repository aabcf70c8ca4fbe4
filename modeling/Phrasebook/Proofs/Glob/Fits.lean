import Mathlib.Data.List.DropRight
import Phrasebook.Proofs.Glob.Components

/-!
# Steps that components stand for

A pattern is a list of components, and what it stands for below a directory is said in steps from
there.  A component stands for one step, and a `**` for names, one behind the other.
-/

namespace Phrasebook.Glob

open Phrasebook.Path

variable {pattern : Pattern} {patterns rest : List Pattern} {name step : String}
variable {steps : List String}

/-- Whether a component stands for a step: a name that it matches, or `.` or `..` if it begins
with a point.  An empty component stands for an empty step. -/
def Pattern.Takes (pattern : Pattern) (step : String) : Prop :=
  pattern.matchesText step = true ∧
    (Plain step.toList ∨ (step = "." ∨ step = "..") ∧ pattern.tokens.head? = some (.char '.') ∨
      step = "" ∧ pattern.tokens = [])

/-- A component without wildcards stands for its text only. -/
theorem eq_of_matchesText (literal : pattern.literal? = some name)
    (matched : pattern.matchesText step = true) : step = name := by
  rw [Pattern.matchesText, literal?_eq_some_iff.mp literal, matchTokens_chars_iff,
    String.toList_inj] at matched
  exact matched

theorem literal?_of_isRecursive (recursive : pattern.isRecursive = true) :
    pattern.literal? = none := by
  rw [Option.eq_none_iff_forall_ne_some]
  intro name literal
  rw [Pattern.isRecursive, literal?_eq_some_iff.mp literal] at recursive
  simp at recursive

theorem isRecursive_of_literal (literal : pattern.literal? = some name) :
    pattern.isRecursive = false := by
  rw [Bool.eq_false_iff]
  intro recursive
  rw [literal?_of_isRecursive recursive] at literal
  cases literal

theorem takes_of_literal (slashless : Slashless pattern) (literal : pattern.literal? = some name) :
    pattern.Takes name := by
  have tokens := literal?_eq_some_iff.mp literal
  refine ⟨?_, ?_⟩
  · rw [Pattern.matchesText, tokens, matchTokens_chars_iff]
  · by_cases empty : name = ""
    · subst empty
      exact .inr (.inr ⟨rfl, tokens⟩)
    · by_cases special : name = "." ∨ name = ".."
      · refine .inr (.inl ⟨special, ?_⟩)
        rw [tokens]
        rcases special with rfl | rfl
        · rfl
        · rfl
      · have chars : ∀ text : List Char, name.toList = text → name = String.ofList text :=
          fun text equal => by rw [← equal, String.ofList_toList]
        rw [not_or] at special
        exact .inl ⟨fun nothing => empty (chars _ nothing), slashless name literal,
          fun here => special.1 (chars _ here), fun up => special.2 (chars _ up)⟩

/-- Whether the components of a pattern stand for steps, one by one.  A `**` stands for any
number of names; a name must follow it, or else it stands for at least one. -/
inductive Fits : List Pattern → List String → Prop where
  | done : Fits [] []
  | step {pattern : Pattern} {rest : List Pattern} {step : String} {steps : List String} :
      pattern.isRecursive = false → pattern.Takes step → Fits rest steps →
      Fits (pattern :: rest) (step :: steps)
  | more {pattern : Pattern} {rest : List Pattern} {name : String} {steps : List String} :
      pattern.isRecursive = true → Plain name.toList → Fits (pattern :: rest) steps →
      Fits (pattern :: rest) (name :: steps)
  | past {pattern : Pattern} {rest : List Pattern} {name : String} {steps : List String} :
      pattern.isRecursive = true → Plain name.toList → Fits rest (name :: steps) →
      Fits (pattern :: rest) (name :: steps)
  | last {pattern : Pattern} {name : String} :
      pattern.isRecursive = true → Plain name.toList → Fits [pattern] [name]

theorem Pattern.Takes.noSlash (takes : pattern.Takes step) : '/' ∉ step.toList := by
  obtain ⟨_, plain | ⟨rfl | rfl, _⟩ | ⟨rfl, _⟩⟩ := takes
  · exact plain.noSlash
  · decide
  · decide
  · decide

theorem Fits.noSlash (fits : Fits patterns steps) : ∀ step ∈ steps, '/' ∉ step.toList := by
  induction fits with
  | done => simp
  | step fixed takes fits ih => exact List.forall_mem_cons.mpr ⟨takes.noSlash, ih⟩
  | more recursive plain fits ih => exact List.forall_mem_cons.mpr ⟨plain.noSlash, ih⟩
  | past recursive plain fits ih => exact ih
  | last recursive plain => simpa using plain.noSlash

theorem Fits.plain (fits : Fits (pattern :: rest) (name :: steps))
    (recursive : pattern.isRecursive = true) : Plain name.toList := by
  cases fits with
  | step fixed => simp [recursive] at fixed
  | more _ plain => exact plain
  | past _ plain => exact plain
  | last _ plain => exact plain

theorem not_fits_nil : ¬ Fits (pattern :: rest) [] := by
  intro fits
  cases fits

theorem fits_cons_iff (fixed : pattern.isRecursive = false) :
    Fits (pattern :: rest) (step :: steps) ↔ pattern.Takes step ∧ Fits rest steps := by
  constructor
  · intro fits
    cases fits with
    | step _ takes fits => exact ⟨takes, fits⟩
    | more recursive => simp [fixed] at recursive
    | past recursive => simp [fixed] at recursive
    | last recursive => simp [fixed] at recursive
  · rintro ⟨takes, fits⟩
    exact .step fixed takes fits

/-- Several `**` in a row stand for what one does: for one more name, for the last one, or for none
in front of what the next component stands for. -/
theorem fits_cons_iff_of_recursive (recursive : pattern.isRecursive = true) :
    Fits (pattern :: rest) (name :: steps) ↔ Plain name.toList ∧
      (Fits (pattern :: rest) steps ∨ (rest.dropWhile Pattern.isRecursive = [] ∧ steps = []) ∨
        Fits (rest.dropWhile Pattern.isRecursive) (name :: steps)) := by
  induction rest generalizing pattern with
  | nil =>
      constructor
      · intro fits
        cases fits with
        | step fixed => simp [recursive] at fixed
        | more _ plain fits => exact ⟨plain, .inl fits⟩
        | past _ plain fits => cases fits
        | last _ plain => exact ⟨plain, .inr (.inl ⟨rfl, rfl⟩)⟩
      · rintro ⟨plain, fits | ⟨_, rfl⟩ | fits⟩
        · exact .more recursive plain fits
        · exact .last recursive plain
        · cases fits
  | cons next rest ih =>
      cases again : next.isRecursive with
      | false =>
          rw [List.dropWhile_cons_of_neg (by simp [again])]
          constructor
          · intro fits
            cases fits with
            | step fixed => simp [recursive] at fixed
            | more _ plain fits => exact ⟨plain, .inl fits⟩
            | past _ plain fits => exact ⟨plain, .inr (.inr fits)⟩
          · rintro ⟨plain, fits | ⟨nothing, _⟩ | fits⟩
            · exact .more recursive plain fits
            · cases nothing
            · exact .past recursive plain fits
      | true =>
          rw [List.dropWhile_cons_of_pos (by simp [again])]
          constructor
          · intro fits
            cases fits with
            | step fixed => simp [recursive] at fixed
            | more _ plain fits => exact ⟨plain, .inl fits⟩
            | past _ plain fits =>
                refine ((ih again).mp fits).imp_right (Or.imp_left ?_)
                intro fits
                cases steps with
                | nil => cases fits
                | cons following steps =>
                    exact .past recursive (fits.plain again) fits
          · rintro ⟨plain, fits | later⟩
            · exact .more recursive plain fits
            · exact .past recursive plain ((ih again).mpr ⟨plain, .inr later⟩)

theorem fits_dropWhile (recursive : pattern.isRecursive = true) :
    Fits (pattern :: rest.dropWhile Pattern.isRecursive) steps ↔ Fits (pattern :: rest) steps := by
  induction steps with
  | nil => exact iff_of_false not_fits_nil not_fits_nil
  | cons name steps ih =>
      rw [fits_cons_iff_of_recursive recursive, fits_cons_iff_of_recursive recursive, ih,
        List.dropWhile_idempotent]

theorem isRecursive_of_dropWhile
    (first : (rest.dropWhile Pattern.isRecursive).head? = some pattern) :
    pattern.isRecursive = false := by
  have stops := List.head?_dropWhile_not Pattern.isRecursive rest
  rwa [first] at stops

@[simp] theorem literal?_ofText (name : String) : (Pattern.ofText name).literal? = some name :=
  literal?_eq_some_iff.mpr rfl

theorem isRecursive_ofText (name : String) : (Pattern.ofText name).isRecursive = false :=
  isRecursive_of_literal (literal?_ofText name)

/-- Literal components in front of others stand for themselves. -/
theorem fits_append_iff {names : List String} (noSlash : ∀ name ∈ names, '/' ∉ name.toList) :
    Fits (names.map Pattern.ofText ++ patterns) steps ↔
      ∃ behind, steps = names ++ behind ∧ Fits patterns behind := by
  induction names generalizing steps with
  | nil => simp
  | cons name rest ih =>
      obtain ⟨noSlashName, noSlash⟩ := List.forall_mem_cons.mp noSlash
      rw [List.map_cons, List.cons_append]
      constructor
      · intro fits
        cases steps with
        | nil => exact absurd fits not_fits_nil
        | cons step steps =>
            obtain ⟨takes, whole⟩ := (fits_cons_iff (isRecursive_ofText name)).mp fits
            obtain ⟨behind, equal, fits⟩ := (ih noSlash).mp whole
            rw [eq_of_matchesText (literal?_ofText name) takes.1, equal]
            exact ⟨behind, rfl, fits⟩
      · rintro ⟨behind, rfl, fits⟩
        have slashless : Slashless (Pattern.ofText name) := by
          intro other literal
          rw [literal?_ofText] at literal
          cases literal
          exact noSlashName
        exact .step (isRecursive_ofText name) (takes_of_literal slashless (literal?_ofText name))
          ((ih noSlash).mpr ⟨behind, rfl, fits⟩)

end Phrasebook.Glob
