import Phrasebook.Proofs.KeyPath.Meeting

/-!
# Trees side by side

Values are written into a first tree where it has nothing yet, and some of them into a
second tree as well, whatever it has there.  The trees can take different shapes, so a
path may be blocked in one of them, or meet another path in one of them alone.  Where
neither happens, a path leads to the same value in both.
-/

namespace Phrasebook.KeyPath

open Json

/-- A value written at a path of the first tree, and whether the second one gets it. -/
structure Addition where
  path : List String
  new : Value
  both : Bool

variable {first second lastFirst lastSecond new : Value} {path other : List String}
variable {addition : Addition} {additions rest : List Addition}

/-- The second tree after an addition. -/
def Addition.apply (addition : Addition) (tree : Value) : Value :=
  if addition.both then write tree addition.path addition.new else tree

/-- Additions lead from the first two trees to the last two. -/
inductive SideBySide : Value → Value → List Addition → Value → Value → Prop where
  | done (first second : Value) : SideBySide first second [] first second
  | step {first second lastFirst lastSecond : Value} {addition : Addition}
      {rest : List Addition} (vacant : ¬ (reach first addition.path).isTruthy = true)
      (more : SideBySide (write first addition.path addition.new) (addition.apply second) rest
        lastFirst lastSecond) :
      SideBySide first second (addition :: rest) lastFirst lastSecond

/-- An addition meets the path in both trees or in neither, where one that the second tree
does not get meets nothing there. -/
def Together (first second : Value) (path : List String) (addition : Addition) : Prop :=
  Meets first path addition.path ↔ Meets second path addition.path ∧ addition.both = true

/-- A path that leads beyond another one in two values does so at the same segment. -/
theorem Beyond.split (beyond : Beyond first path other) (beyondToo : Beyond second path other) :
    ∃ front back, other = front ++ back ∧ route first front = route first path ∧
      route second front = route second path := by
  obtain ⟨front, back, split, _, same⟩ := beyond
  obtain ⟨front', back', split', _, same'⟩ := beyondToo
  have sameLength : front.length = front'.length := by
    rw [← length_route first front, same, length_route, ← length_route second front', same',
      length_route]
  obtain ⟨rfl, rfl⟩ := List.append_inj (split.symm.trans split') sameLength
  exact ⟨front, back, split, same, same'⟩

/-- An addition that meets the path in both trees or in neither changes what the path leads
to in both alike. -/
theorem Together.agree (together : Together first second path addition) (proper : path ≠ [])
    (truthy : (reach first path).isTruthy = true)
    (same : reach second path = reach first path)
    (vacant : ¬ (reach first addition.path).isTruthy = true) :
    reach (addition.apply second) path =
      reach (write first addition.path addition.new) path := by
  have presentFirst := ne_null_of_isTruthy truthy
  have presentSecond : reach second path ≠ .null := same ▸ presentFirst
  have locatedFirst := none_not_mem_route presentFirst
  have locatedSecond := none_not_mem_route presentSecond
  by_cases meets : Meets first path addition.path
  · obtain ⟨meetsToo, both⟩ := together.mp meets
    have beyond : Beyond first path addition.path :=
      meets.beyond locatedFirst fun above => vacant (above.isTruthy truthy)
    have beyondToo : Beyond second path addition.path :=
      meetsToo.beyond locatedSecond fun above =>
        absurd above.length_le (Nat.not_le.mpr beyond.length_lt)
    obtain ⟨front, back, split, sameFirst, sameSecond⟩ := beyond.split beyondToo
    have containerFirst := isContainer_of_reach proper presentFirst
    have containerSecond := isContainer_of_reach proper presentSecond
    rw [Addition.apply, if_pos both, split,
      reach_write_of_beyond containerFirst locatedFirst sameFirst,
      reach_write_of_beyond containerSecond locatedSecond sameSecond, same]
  · rw [reach_write_of_not_meets meets, Addition.apply]
    split
    · rename_i both
      rw [reach_write_of_not_meets fun meetsToo => meets (together.mpr ⟨meetsToo, both⟩), same]
    · exact same

/-- An addition that the second tree gets ends above the path in the end. -/
def Overridden (lastSecond : Value) (path : List String) (additions : List Addition) : Prop :=
  ∃ addition ∈ additions, addition.both = true ∧ Above lastSecond addition.path path

theorem Overridden.cons (overridden : Overridden lastSecond path rest) :
    Overridden lastSecond path (addition :: rest) := by
  obtain ⟨other, member, found⟩ := overridden
  exact ⟨other, List.mem_cons_of_mem addition member, found⟩

namespace SideBySide

theorem grows (sides : SideBySide first second additions lastFirst lastSecond) :
    Grows first lastFirst := by
  induction sides with
  | done first second => exact .refl first
  | step vacant _ ih => exact (Grows.write vacant _).trans ih

/-- No addition ends above a translation in the first tree. -/
theorem not_above (sides : SideBySide first second additions lastFirst lastSecond)
    (truthy : (reach first path).isTruthy = true) :
    ∀ addition ∈ additions, ¬ Above lastFirst addition.path path := by
  induction sides with
  | done first second => simp
  | @step first second lastFirst lastSecond head rest vacant more ih =>
      have written : Grows first (write first head.path head.new) := Grows.write vacant _
      intro addition member
      rcases List.mem_cons.mp member with rfl | later
      · have present := ne_null_of_isTruthy truthy
        have same := route_of_grows (written.trans more.grows) present
        intro above
        rw [above_congr same (same ▸ none_not_mem_route present)] at above
        exact vacant (above.isTruthy truthy)
      · exact ih ((written path).truthy truthy) addition later

/-- What a write keeps unless it ends above the path is kept to the end, unless an addition
ends above the path there. -/
theorem keeps {motive : Value → Prop}
    (sides : SideBySide first second additions lastFirst lastSecond) (start : motive second)
    (step : ∀ value other new, motive value →
      motive (write value other new) ∨ Above (write value other new) other path) :
    motive lastSecond ∨ Overridden lastSecond path additions := by
  induction sides generalizing motive with
  | done first second => exact .inl start
  | @step first second lastFirst lastSecond head rest vacant more ih =>
      cases both : head.both with
      | false =>
          have unchanged : head.apply second = second := by simp [Addition.apply, both]
          exact (ih (by rwa [unchanged]) step).imp_right Overridden.cons
      | true =>
          have written : head.apply second = write second head.path head.new := by
            simp [Addition.apply, both]
          rcases step second head.path head.new start with still | own
          · exact (ih (by rwa [written]) step).imp_right Overridden.cons
          · -- What ends above the path now does so in the end, or something later does.
            right
            rcases @ih (Above · head.path path) (by rwa [written])
              (fun _ other new above => above.write other new) with last | later
            · exact ⟨head, List.mem_cons_self, both, last⟩
            · exact later.cons

/-- An addition that ends above the path in the second tree alone does not meet it in both
trees together. -/
theorem not_overridden (sides : SideBySide first second additions lastFirst lastSecond)
    (truthy : (reach first path).isTruthy = true)
    (together : ∀ addition ∈ additions, Together lastFirst lastSecond path addition) :
    ¬ Overridden lastSecond path additions := by
  rintro ⟨addition, member, both, above⟩
  have meets := (together addition member).mpr ⟨above.meets, both⟩
  have present := ne_null_of_isTruthy ((sides.grows path).truthy truthy)
  have beyond := meets.beyond (none_not_mem_route present)
    (sides.not_above truthy addition member)
  exact absurd above.length_le (Nat.not_le.mpr beyond.length_lt)

/-- A path to something in the second tree keeps its route to the end. -/
theorem route_last (sides : SideBySide first second additions lastFirst lastSecond)
    (located : none ∉ route second path)
    (notOverridden : ¬ Overridden lastSecond path additions) :
    route lastSecond path = route second path := by
  have kept := @keeps _ _ _ _ path _ (fun value => route value path = route second path) sides
    rfl ?_
  · exact kept.resolve_right notOverridden
  · intro value other new equal
    by_cases above : Above value other path
    · exact .inr (above.write_self new)
    · left
      rw [route_write (equal ▸ located) above]
      exact equal

/-- A path that leads to one translation in both trees still does so in the end, if all
additions meet it in both trees together. -/
theorem agree (sides : SideBySide first second additions lastFirst lastSecond)
    (proper : path ≠ []) (truthy : (reach first path).isTruthy = true)
    (same : reach second path = reach first path)
    (together : ∀ addition ∈ additions, Together lastFirst lastSecond path addition) :
    reach lastSecond path = reach lastFirst path := by
  induction sides with
  | done first second => exact same
  | @step first second lastFirst lastSecond head rest vacant more ih =>
      have sides : SideBySide first second (head :: rest) lastFirst lastSecond :=
        .step vacant more
      have presentFirst := ne_null_of_isTruthy truthy
      have presentSecond : reach second path ≠ .null := same ▸ presentFirst
      have routeFirst := route_of_grows sides.grows presentFirst
      have routeSecond := sides.route_last (none_not_mem_route presentSecond)
        (sides.not_overridden truthy together)
      -- As the path has its last routes already, so much is known of the addition now.
      have here : Together first second path head := by
        have last := together head List.mem_cons_self
        rwa [Together, meets_congr routeFirst (routeFirst ▸ none_not_mem_route presentFirst),
          meets_congr routeSecond (routeSecond ▸ none_not_mem_route presentSecond)] at last
      apply ih
      · exact ((Grows.write vacant _) path).truthy truthy
      · exact here.agree proper truthy same vacant
      · intro addition member
        exact together addition (List.mem_cons_of_mem head member)

/-- What was written at a path of both trees is the same in the end, if the path is blocked
in neither and all later additions meet it in both trees together. -/
theorem agree_of_written
    (sides : SideBySide (write first path new) (write second path new) additions lastFirst
      lastSecond)
    (proper : path ≠ []) (container : first.isContainer = true)
    (containerSecond : second.isContainer = true) (truthy : new.isTruthy = true)
    (free : ¬ Blocked lastFirst path) (freeSecond : ¬ Blocked lastSecond path)
    (together : ∀ addition ∈ additions, Together lastFirst lastSecond path addition) :
    reach lastSecond path = reach lastFirst path ∧ (reach lastFirst path).isTruthy = true := by
  have written : reach (write first path new) path = new := by
    apply reach_write fun _ => container
    intro blocked
    have still : Blocked (write first path new) path := by rwa [write_of_blocked blocked]
    exact free (still.grows sides.grows)
  have taken : (reach (write first path new) path).isTruthy = true := by rwa [written]
  have writtenSecond : reach (write second path new) path = new := by
    apply reach_write fun _ => containerSecond
    intro blocked
    have still : Blocked (write second path new) path := by rwa [write_of_blocked blocked]
    have kept := @keeps _ _ _ _ path _ (Blocked · path) sides still
      fun _ other new blocked => blocked_write blocked other new
    rcases kept with last | overridden
    · exact freeSecond last
    · exact sides.not_overridden taken together overridden
  have same := writtenSecond.trans written.symm
  exact ⟨sides.agree proper taken same together, (sides.grows path).truthy taken⟩

end SideBySide
end Phrasebook.KeyPath
