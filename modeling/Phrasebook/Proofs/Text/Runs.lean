import Phrasebook.Text.Runs

/-!
# Cutting and joining texts

A text is cut at its separators into runs.  A text that is joined from runs, with one separator
between them, is cut into just these again.
-/

namespace Phrasebook.Text

variable {separates : Char → Bool} {c separator : Char}
variable {text run rest gap front back part : List Char} {parts : List (List Char)}

theorem mem_closeRun (member : part ∈ closeRun run) :
    part = run ∧ run ≠ [] := by
  unfold closeRun at member
  split at member
  · simp at member
  · rename_i nonempty
    exact ⟨by simpa using member, nonempty⟩

theorem closeRun_of_ne_nil (nonempty : run ≠ []) : closeRun run = [run] :=
  if_neg nonempty

/-- A run holds characters, none of which separates. -/
theorem mem_runsAfter (clean : ∀ c ∈ run, separates c = false)
    (member : part ∈ runsAfter separates run text) :
    part ≠ [] ∧ ∀ c ∈ part, separates c = false := by
  induction text generalizing run with
  | nil =>
      obtain ⟨rfl, nonempty⟩ := mem_closeRun member
      exact ⟨nonempty, clean⟩
  | cons c rest ih =>
      rw [runsAfter] at member
      split at member
      · rcases List.mem_append.mp member with closed | later
        · obtain ⟨rfl, nonempty⟩ := mem_closeRun closed
          exact ⟨nonempty, clean⟩
        · exact ih (by simp) later
      · rename_i joins
        apply ih _ member
        intro other member
        rcases List.mem_append.mp member with old | last
        · exact clean other old
        · rw [List.mem_singleton.mp last]
          simpa using joins

theorem mem_runs (member : part ∈ runs separates text) :
    part ≠ [] ∧ ∀ c ∈ part, separates c = false :=
  mem_runsAfter (by simp) member

/-- A text without separators is one run. -/
theorem runsAfter_of_clean (clean : ∀ c ∈ text, separates c = false)
    (run : List Char) : runsAfter separates run text = closeRun (run ++ text) := by
  induction text generalizing run with
  | nil => rw [List.append_nil, runsAfter]
  | cons c rest ih =>
      have joins : ¬ separates c = true := by simp [clean c List.mem_cons_self]
      rw [runsAfter, if_neg joins,
        ih (fun other member => clean other (List.mem_cons_of_mem _ member)),
        List.append_assoc, List.singleton_append]

theorem runs_of_clean (nonempty : text ≠ []) (clean : ∀ c ∈ text, separates c = false) :
    runs separates text = [text] := by
  rw [runs, runsAfter_of_clean clean, List.nil_append, closeRun_of_ne_nil nonempty]

theorem runs_of_mem_runs (member : part ∈ runs separates text) :
    runs separates part = [part] := by
  obtain ⟨nonempty, clean⟩ := mem_runs member
  exact runs_of_clean nonempty clean

theorem runsAfter_append_cons (separated : separates c = true) (run front back : List Char) :
    runsAfter separates run (front ++ c :: back) =
      runsAfter separates run front ++ runs separates back := by
  induction front generalizing run with
  | nil => simp only [List.nil_append, runsAfter, if_pos separated, runs]
  | cons d rest ih =>
      rw [List.cons_append, runsAfter, runsAfter]
      split
      · rw [ih, List.append_assoc]
      · rw [ih]

/-- No run reaches over a separator. -/
theorem runs_append_cons (separated : separates c = true) (front back : List Char) :
    runs separates (front ++ c :: back) = runs separates front ++ runs separates back :=
  runsAfter_append_cons separated [] front back

theorem runs_cons (separated : separates c = true) (text : List Char) :
    runs separates (c :: text) = runs separates text :=
  runs_append_cons separated [] text

theorem runs_append_of_separated (separated : ∀ c ∈ gap, separates c = true) (text : List Char) :
    runs separates (gap ++ text) = runs separates text := by
  induction gap with
  | nil => rfl
  | cons c gap ih =>
      rw [List.cons_append, runs_cons (separated c List.mem_cons_self),
        ih fun other member => separated other (List.mem_cons_of_mem _ member)]

/-- A text has some runs: first characters that separate, then a run as long as it can be, and
so on, up to characters that separate. -/
inductive HasRuns (separates : Char → Bool) : List Char → List (List Char) → Prop where
  | stop {gap : List Char} (separated : ∀ c ∈ gap, separates c = true) :
      HasRuns separates gap []
  | run {gap run rest : List Char} {parts : List (List Char)}
      (separated : ∀ c ∈ gap, separates c = true)
      (nonempty : run ≠ []) (clean : ∀ c ∈ run, separates c = false)
      (longest : ∀ c ∈ rest.head?, separates c = true) (more : HasRuns separates rest parts) :
      HasRuns separates (gap ++ run ++ rest) (run :: parts)

theorem HasRuns.cons (separated : separates c = true) (has : HasRuns separates text parts) :
    HasRuns separates (c :: text) parts := by
  cases has with
  | stop others => exact .stop (List.forall_mem_cons.mpr ⟨separated, others⟩)
  | run others nonempty clean longest more =>
      exact .run (List.forall_mem_cons.mpr ⟨separated, others⟩) nonempty clean longest more

theorem hasRuns_closeRun (clean : ∀ c ∈ run, separates c = false)
    (longest : ∀ c ∈ rest.head?, separates c = true) (more : HasRuns separates rest parts) :
    HasRuns separates (run ++ rest) (closeRun run ++ parts) := by
  by_cases empty : run = []
  · rw [closeRun, if_pos empty, empty]
    exact more
  · rw [closeRun_of_ne_nil empty]
    have nothing : ∀ c ∈ ([] : List Char), separates c = true := by simp
    exact .run nothing empty clean longest more

theorem hasRuns_runsAfter (clean : ∀ c ∈ run, separates c = false) (text : List Char) :
    HasRuns separates (run ++ text) (runsAfter separates run text) := by
  induction text generalizing run with
  | nil =>
      have nothing : HasRuns separates [] [] := .stop (by simp)
      have closed := hasRuns_closeRun clean (by simp) nothing
      rw [runsAfter, List.append_nil]
      simpa using closed
  | cons c rest ih =>
      rw [runsAfter]
      split
      · rename_i separated
        have nothing : ∀ d ∈ ([] : List Char), separates d = false := by simp
        have later : HasRuns separates rest (runsAfter separates [] rest) := ih nothing
        exact hasRuns_closeRun clean (by simpa using separated) (later.cons separated)
      · rename_i joins
        have longer : ∀ d ∈ run ++ [c], separates d = false := by
          intro d member
          rcases List.mem_append.mp member with old | last
          · exact clean d old
          · rw [List.mem_singleton.mp last]
            simpa using joins
        simpa using ih longer

theorem HasRuns.eq (has : HasRuns separates text parts) : runs separates text = parts := by
  induction has with
  | @stop gap separated =>
      have same := runs_append_of_separated separated []
      rwa [List.append_nil] at same
  | @run gap run rest parts separated nonempty clean longest more ih =>
      rw [List.append_assoc, runs_append_of_separated separated]
      cases rest with
      | nil =>
          rw [List.append_nil, runs_of_clean nonempty clean, ← ih]
          rfl
      | cons c rest =>
          have ends : separates c = true := longest c rfl
          rw [runs_append_cons ends, runs_of_clean nonempty clean, ← ih, runs_cons ends]
          rfl

/-- A text has just the runs that it is cut into. -/
theorem hasRuns_iff : HasRuns separates text parts ↔ runs separates text = parts := by
  constructor
  · exact HasRuns.eq
  · rintro rfl
    have nothing : ∀ c ∈ ([] : List Char), separates c = false := by simp
    exact hasRuns_runsAfter nothing text

/-- The runs hold everything but the separators. -/
theorem flatten_runs (text : List Char) :
    (runs separates text).flatten = text.filter fun c => !separates c := by
  have has : HasRuns separates text (runs separates text) := hasRuns_iff.mpr rfl
  generalize runs separates text = parts at has
  induction has with
  | stop separated =>
      rw [List.flatten_nil, eq_comm, List.filter_eq_nil_iff]
      intro c member
      simp [separated c member]
  | @run gap run rest parts separated nonempty clean longest more ih =>
      have none : gap.filter (fun c => !separates c) = [] :=
        List.filter_eq_nil_iff.mpr fun c member => by simp [separated c member]
      have all : run.filter (fun c => !separates c) = run :=
        List.filter_eq_self.mpr fun c member => by simp [clean c member]
      rw [List.flatten_cons, ih, List.filter_append, List.filter_append, none, all, List.nil_append]

/-- A text joined from runs starts as the first of them does. -/
theorem exists_head?_intercalate (separator : Char)
    (clean : ∀ part ∈ run :: parts, part ≠ [] ∧ ∀ c ∈ part, separates c = false) :
    ∃ first ∈ ([separator].intercalate (run :: parts)).head?, separates first = false := by
  obtain ⟨⟨nonempty, cleanRun⟩, _⟩ := List.forall_mem_cons.mp clean
  obtain ⟨first, rest, rfl⟩ := List.exists_cons_of_ne_nil nonempty
  refine ⟨first, ?_, cleanRun first List.mem_cons_self⟩
  cases parts with
  | nil => simp
  | cons next parts => simp

section
variable (separated : separates separator = true)
variable (clean : ∀ part ∈ parts, part ≠ [] ∧ ∀ c ∈ part, separates c = false)
include separated clean

/-- A text joined from runs is cut into them. -/
theorem runs_intercalate : runs separates ([separator].intercalate parts) = parts := by
  induction parts with
  | nil => rfl
  | cons run others ih =>
      obtain ⟨⟨nonempty, cleanRun⟩, cleanOthers⟩ := List.forall_mem_cons.mp clean
      cases others with
      | nil => rw [List.intercalate_singleton, runs_of_clean nonempty cleanRun]
      | cons next others =>
          rw [List.intercalate_cons_cons, List.append_assoc, List.singleton_append,
            runs_append_cons separated, runs_of_clean nonempty cleanRun, ih cleanOthers,
            List.singleton_append]

/-- What separates in a text joined from runs stands alone between two characters of runs. -/
theorem alone_of_intercalate (joined : [separator].intercalate parts = front ++ c :: back)
    (parting : separates c = true) :
    c = separator ∧ (∃ before ∈ front.getLast?, separates before = false) ∧
      ∃ after ∈ back.head?, separates after = false := by
  induction parts generalizing front with
  | nil => simp at joined
  | cons run others ih =>
      obtain ⟨⟨nonempty, cleanRun⟩, cleanOthers⟩ := List.forall_mem_cons.mp clean
      have notInside : c ∉ run := by
        intro inside
        rw [cleanRun c inside] at parting
        cases parting
      cases others with
      | nil =>
          rw [List.intercalate_singleton] at joined
          exact absurd (joined ▸ List.mem_append_right _ List.mem_cons_self) notInside
      | cons next others =>
          rw [List.intercalate_cons_cons, List.append_assoc, List.singleton_append] at joined
          have atFirst : front = run → c :: back = separator :: [separator].intercalate
              (next :: others) → c = separator ∧ (∃ before ∈ front.getLast?,
                separates before = false) ∧ ∃ after ∈ back.head?, separates after = false := by
            rintro rfl equal
            obtain ⟨rfl, rfl⟩ := List.cons.inj equal
            have last := List.getLast?_eq_some_getLast nonempty
            exact ⟨rfl, ⟨_, last, cleanRun _ (List.getLast_mem nonempty)⟩,
              exists_head?_intercalate _ cleanOthers⟩
          rcases List.append_eq_append_iff.mp joined with ⟨between, rfl, behind⟩ | ⟨inside, rfl, rest⟩
          · cases between with
            | nil => exact atFirst (List.append_nil run) behind.symm
            | cons d between =>
                obtain ⟨rfl, later⟩ := List.cons.inj behind
                obtain ⟨equal, ⟨before, last, cleanBefore⟩, after⟩ := ih cleanOthers later
                obtain ⟨inner, rfl⟩ := List.getLast?_eq_some_iff.mp last
                refine ⟨equal, ⟨before, ?_, cleanBefore⟩, after⟩
                exact List.getLast?_eq_some_iff.mpr ⟨run ++ separator :: inner, by simp⟩
          · cases inside with
            | nil => exact atFirst (List.append_nil front).symm rest
            | cons d inside =>
                obtain ⟨rfl, _⟩ := List.cons.inj rest
                exact absurd (by simp) notInside

end

end Phrasebook.Text
