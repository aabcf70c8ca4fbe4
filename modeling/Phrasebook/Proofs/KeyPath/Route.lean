import Phrasebook.Proofs.KeyPath.Growth

/-!
# Routes

The route of a path is the list of slots it passes through.  Paths of different text can
take the same route, since an array index has several spellings.  What lies at the end
of a route stays there when a value is merged elsewhere, with one exception: a path that
leads on beyond a scalar makes a container of it.
-/

namespace Phrasebook.KeyPath

open Json

variable {value new before after : Value} {path other : List String}

/-- The slots of the segments of a path, each in the value before it. -/
def route (value : Value) : List String → List (Option Slot)
  | [] => []
  | segment :: rest => slot? value segment :: route (below value segment) rest

/-- Whether a path leads on beyond the place where another one ends. -/
def Beyond (value : Value) (path other : List String) : Prop :=
  ∃ front back, other = front ++ back ∧ back ≠ [] ∧ route value front = route value path

@[simp] theorem length_route (value : Value) (path : List String) :
    (route value path).length = path.length := by
  induction path generalizing value with
  | nil => rfl
  | cons segment rest ih => simp [route, ih]

/-- One route leads to one place. -/
theorem reach_of_route_eq (same : route value other = route value path) :
    reach value other = reach value path := by
  induction path generalizing value other with
  | nil =>
      have empty : other = [] := by
        apply List.length_eq_zero_iff.mp
        rw [← length_route value other, same]
        rfl
      rw [empty]
  | cons segment rest ih =>
      cases other with
      | nil => simp [route] at same
      | cons head tail =>
          obtain ⟨sameSlot, sameRest⟩ := List.cons.inj same
          rw [below_congr sameSlot] at sameRest
          rw [reach_cons, reach_cons, below_congr sameSlot]
          exact ih sameRest

/-- A path to something keeps its route when the value grows. -/
theorem route_of_grows (grows : Grows before after) (present : reach before path ≠ .null) :
    route after path = route before path := by
  induction path generalizing before after with
  | nil => rfl
  | cons segment rest ih =>
      have container : before.isContainer = true := isContainer_of_reach (by simp) present
      rw [route, route, grows.root.slot? container, ih (grows.below segment) present]

theorem Beyond.grows (beyond : Beyond before path other) (grows : Grows before after)
    (present : reach before path ≠ .null) : Beyond after path other := by
  obtain ⟨front, back, equal, proper, same⟩ := beyond
  refine ⟨front, back, equal, proper, ?_⟩
  have presentFront : reach before front ≠ .null := by rwa [reach_of_route_eq same]
  rw [route_of_grows grows present, route_of_grows grows presentFront, same]

theorem beyond_cons {segment head : String} {rest tail : List String}
    (same : slot? value head = slot? value segment)
    (beyond : Beyond (below value segment) rest tail) :
    Beyond value (segment :: rest) (head :: tail) := by
  obtain ⟨front, back, rfl, proper, sameRest⟩ := beyond
  refine ⟨head :: front, back, rfl, proper, ?_⟩
  rw [route, route, below_congr same, same, sameRest]

theorem blocked_append {front back : List String} :
    Blocked value (front ++ back) ↔ Blocked value front ∨ Blocked (reach value front) back := by
  induction front generalizing value with
  | nil => simp [not_blocked_nil]
  | cons segment rest ih =>
      rw [List.cons_append, blocked_cons, blocked_cons, ih, reach_cons, or_assoc]

/-- A path beyond a scalar leads nowhere and is open to be written. -/
theorem open_of_beyond (beyond : Beyond value path other)
    (scalar : (reach value path).isContainer = false)
    (truthy : (reach value path).isTruthy = true) :
    reach value other = .null ∧ ¬ Blocked value other := by
  obtain ⟨front, back, rfl, proper, same⟩ := beyond
  have sameReach := reach_of_route_eq same
  constructor
  · rw [reach_append, sameReach]
    exact reach_of_scalar scalar proper
  · intro blocked
    rcases blocked_append.mp blocked with early | late
    · rw [← sameReach, reach_of_blocked early] at truthy
      simp [Value.isTruthy] at truthy
    · have container := late.isContainer
      rw [sameReach, scalar] at container
      simp at container

/-- A scalar that counts as a translation stays at its place when a value is merged at a
path that does not lead beyond it. -/
theorem reach_merge_of_scalar (truthy : (reach value path).isTruthy = true)
    (scalar : (reach value path).isContainer = false) (other : List String) (new : Value) :
    reach (merge value other new) path = reach value path ∨ Beyond value path other := by
  induction path generalizing value other with
  | nil =>
      cases other with
      | nil => exact .inl (by rw [merge_of_truthy truthy])
      | cons head tail => exact .inr ⟨[], head :: tail, rfl, by simp, rfl⟩
  | cons segment rest ih =>
      have present : (slot? value segment).isSome = true := by
        by_contra missing
        rw [reach_cons, below_of_slot?_eq_none (by simpa using missing),
          reach_null] at truthy
        simp [Value.isTruthy] at truthy
      cases other with
      | nil =>
          have taken : (reach value []).isTruthy = true :=
            isTruthy_of_isContainer (isContainer_of_slot? present)
          exact .inl (by rw [merge_of_truthy taken])
      | cons head tail =>
          rw [merge_cons, reach_cons, reach_cons]
          by_cases same : slot? value head = slot? value segment
          · have presentHead : (slot? value head).isSome = true := by rwa [same]
            rw [below_fill_of_same presentHead same.symm, below_congr same]
            by_cases inner : (below value segment).isContainer = true
            · rw [prepared_of_isContainer inner]
              exact (ih truthy scalar tail).imp_right (beyond_cons same)
            · -- A scalar inside the slot is the one at the end of the path.
              have innerScalar : (below value segment).isContainer = false := by
                simpa using inner
              have last : rest = [] := by
                by_contra proper
                rw [reach_cons, reach_of_scalar innerScalar proper] at truthy
                simp [Value.isTruthy] at truthy
              subst last
              cases tail with
              | nil => exact (ih truthy scalar []).imp_right (beyond_cons same)
              | cons next tail =>
                  exact .inr (beyond_cons same ⟨[], next :: tail, rfl, by simp, rfl⟩)
          · exact .inl (by rw [below_fill_of_ne (Ne.symm same)])

end Phrasebook.KeyPath
