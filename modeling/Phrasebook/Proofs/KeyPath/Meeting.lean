import Phrasebook.Proofs.KeyPath.Route

/-!
# Paths that meet

Two paths meet in a value when their routes agree as long as both go on.  Writing at a
path changes what another one leads to only if the two meet there, and it changes the
route of the other one only if it ends above the end of that one.
-/

namespace Phrasebook.KeyPath

open Json

variable {value new first second : Value} {segment head : String}
variable {path other rest tail : List String}

/-- The routes of the paths agree as long as both go on. -/
def Meets (value : Value) (path other : List String) : Prop :=
  route value path <+: route value other ∨ route value other <+: route value path

/-- The first path leads to a place on the way of the second one, or to its end. -/
def Above (value : Value) (other path : List String) : Prop :=
  none ∉ route value other ∧ route value other <+: route value path

instance (value : Value) (path other : List String) : Decidable (Meets value path other) :=
  inferInstanceAs (Decidable (_ ∨ _))

theorem meets_nil (value : Value) (other : List String) : Meets value [] other :=
  .inl List.nil_prefix

theorem meets_of_nil (value : Value) (path : List String) : Meets value path [] :=
  .inr List.nil_prefix

theorem above_nil (value : Value) (path : List String) : Above value [] path :=
  ⟨List.not_mem_nil, List.nil_prefix⟩

theorem not_above_nil : ¬ Above value (head :: tail) [] := by
  intro above
  exact List.cons_ne_nil _ _ (List.prefix_nil.mp above.2)

theorem meets_cons :
    Meets value (segment :: rest) (head :: tail) ↔
      slot? value head = slot? value segment ∧ Meets (below value segment) rest tail := by
  unfold Meets
  rw [route, route, List.cons_prefix_cons, List.cons_prefix_cons]
  constructor
  · rintro (⟨same, agree⟩ | ⟨same, agree⟩)
    · rw [below_congr same.symm] at agree
      exact ⟨same.symm, .inl agree⟩
    · rw [below_congr same] at agree
      exact ⟨same, .inr agree⟩
  · rintro ⟨same, agree⟩
    rw [below_congr same]
    exact agree.imp (⟨same.symm, ·⟩) (⟨same, ·⟩)

theorem above_cons :
    Above value (head :: tail) (segment :: rest) ↔
      slot? value segment ≠ none ∧ slot? value head = slot? value segment ∧
        Above (below value segment) tail rest := by
  unfold Above
  rw [route, route, List.cons_prefix_cons, List.mem_cons, not_or]
  constructor
  · rintro ⟨⟨present, located⟩, same, agree⟩
    rw [below_congr same] at located agree
    rw [← same]
    exact ⟨Ne.symm present, rfl, located, agree⟩
  · rintro ⟨present, same, located, agree⟩
    rw [below_congr same, same]
    exact ⟨⟨Ne.symm present, located⟩, rfl, agree⟩

theorem Above.meets (above : Above value other path) : Meets value path other :=
  .inr above.2

theorem Above.length_le (above : Above value other path) : other.length ≤ path.length := by
  have shorter := above.2.length_le
  rwa [length_route, length_route] at shorter

/-- A path that meets another one without leading above its end leads beyond it. -/
theorem Meets.beyond (meets : Meets value path other) (located : none ∉ route value path)
    (notAbove : ¬ Above value other path) : Beyond value path other := by
  induction path generalizing value other with
  | nil =>
      cases other with
      | nil => exact absurd (above_nil value []) notAbove
      | cons head tail => exact ⟨[], head :: tail, rfl, by simp, rfl⟩
  | cons segment rest ih =>
      cases other with
      | nil => exact absurd (above_nil value _) notAbove
      | cons head tail =>
          rw [route, List.mem_cons, not_or] at located
          obtain ⟨same, inner⟩ := meets_cons.mp meets
          apply beyond_cons same
          apply ih inner located.2
          intro above
          exact notAbove (above_cons.mpr ⟨Ne.symm located.1, same, above⟩)

theorem Beyond.length_lt (beyond : Beyond value path other) : path.length < other.length := by
  obtain ⟨front, back, rfl, proper, same⟩ := beyond
  have sameLength := congrArg List.length same
  rw [length_route, length_route] at sameLength
  rw [List.length_append, sameLength]
  exact Nat.lt_add_of_pos_right (List.length_pos_iff.mpr proper)

/-- Everything on the way to something has its slot. -/
theorem none_not_mem_route (present : reach value path ≠ .null) : none ∉ route value path := by
  induction path generalizing value with
  | nil => exact List.not_mem_nil
  | cons segment rest ih =>
      rw [route, List.mem_cons, not_or]
      rw [reach_cons] at present
      refine ⟨?_, ih present⟩
      intro missing
      rw [below_of_slot?_eq_none missing.symm, reach_null] at present
      exact present rfl

theorem isContainer_below (located : none ∉ route value (segment :: head :: tail)) :
    (below value segment).isContainer = true := by
  rw [route, route, List.mem_cons, List.mem_cons, not_or, not_or] at located
  exact isContainer_of_slot? (Option.isSome_iff_ne_none.mpr (Ne.symm located.2.1))

/-- In a scalar any two paths meet, since it has no slots. -/
theorem meets_of_scalar (scalar : value.isContainer = false) (path other : List String) :
    Meets value path other := by
  induction path generalizing value other with
  | nil => exact meets_nil value other
  | cons segment rest ih =>
      cases other with
      | nil => exact meets_of_nil value _
      | cons head tail =>
          rw [meets_cons, slot?_of_scalar scalar, slot?_of_scalar scalar, below_of_scalar scalar]
          exact ⟨rfl, ih rfl tail⟩

/-- On the way to a translation there are only translations. -/
theorem Above.isTruthy (above : Above value other path)
    (truthy : (reach value path).isTruthy = true) : (reach value other).isTruthy = true := by
  induction other generalizing value path with
  | nil =>
      cases path with
      | nil => exact truthy
      | cons segment rest =>
          apply isTruthy_of_isContainer
          exact isContainer_of_reach (by simp) (ne_null_of_isTruthy truthy)
  | cons head tail ih =>
      cases path with
      | nil => exact absurd above not_above_nil
      | cons segment rest =>
          obtain ⟨_, same, inner⟩ := above_cons.mp above
          rw [reach_cons, below_congr same]
          exact ih inner truthy

/-! ## Values with the same route -/

/-- Values in which a segment has the same slot are of one kind. -/
theorem slot?_congr (same : slot? first segment = slot? second segment)
    (present : slot? first segment ≠ none) (head : String) :
    slot? first head = slot? second head := by
  cases first with
  | object members =>
      cases second with
      | object others => rfl
      | array items =>
          rw [slot?_array, eq_comm, slot?_object, Option.map_eq_some_iff] at same
          obtain ⟨_, _, equal⟩ := same
          cases equal
      | _ => cases same
  | array items =>
      cases second with
      | object others =>
          rw [slot?_array, slot?_object, Option.map_eq_some_iff] at same
          obtain ⟨_, _, equal⟩ := same
          cases equal
      | array others => rfl
      | _ => exact absurd same present
  | _ => exact absurd rfl present

/-- What meets a path depends on the route of the path alone. -/
theorem meets_congr (same : route first path = route second path)
    (located : none ∉ route first path) :
    Meets first path other ↔ Meets second path other := by
  induction path generalizing first second other with
  | nil => exact iff_of_true (meets_nil first other) (meets_nil second other)
  | cons segment rest ih =>
      cases other with
      | nil => exact iff_of_true (meets_of_nil first _) (meets_of_nil second _)
      | cons head tail =>
          rw [route, List.mem_cons, not_or] at located
          obtain ⟨sameSlot, sameRest⟩ := List.cons.inj same
          rw [meets_cons, meets_cons, ih sameRest located.2, sameSlot,
            slot?_congr sameSlot (Ne.symm located.1)]

theorem above_congr (same : route first path = route second path)
    (located : none ∉ route first path) :
    Above first other path ↔ Above second other path := by
  induction path generalizing first second other with
  | nil =>
      cases other with
      | nil => exact iff_of_true (above_nil first _) (above_nil second _)
      | cons head tail => exact iff_of_false not_above_nil not_above_nil
  | cons segment rest ih =>
      cases other with
      | nil => exact iff_of_true (above_nil first _) (above_nil second _)
      | cons head tail =>
          rw [route, List.mem_cons, not_or] at located
          obtain ⟨sameSlot, sameRest⟩ := List.cons.inj same
          rw [above_cons, above_cons, ih sameRest located.2, sameSlot,
            slot?_congr sameSlot (Ne.symm located.1)]

@[simp] theorem slot?_write (value : Value) (head : String) (tail : List String)
    (new : Value) (segment : String) :
    slot? (write value (head :: tail) new) segment = slot? value segment := by
  rw [write_cons, slot?_fill]

/-- Below a slot on the path, writing is writing along the rest of the path. -/
theorem below_write_of_same (present : slot? value segment ≠ none)
    (same : slot? value head = slot? value segment) (tail : List String) (new : Value) :
    below (write value (head :: tail) new) segment =
      write (prepared tail (below value segment)) tail new := by
  have slotted : (slot? value head).isSome = true := by
    rw [same]
    exact Option.isSome_iff_ne_none.mpr present
  rw [write_cons, below_fill_of_same slotted same.symm, below_congr same]

theorem below_write_of_ne (different : slot? value head ≠ slot? value segment)
    (tail : List String) (new : Value) :
    below (write value (head :: tail) new) segment = below value segment := by
  rw [write_cons, below_fill_of_ne (Ne.symm different)]

theorem Above.prepared (above : Above value other path) (way : List String) :
    Above (prepared way value) other path := by
  cases other with
  | nil => exact above_nil _ path
  | cons head tail =>
      cases path with
      | nil => exact absurd above not_above_nil
      | cons segment rest =>
          have present := (above_cons.mp above).1
          rwa [prepared_of_isContainer
            (isContainer_of_slot? (Option.isSome_iff_ne_none.mpr present))]

/-- A path that ends above another one still does after writing at its end. -/
theorem Above.write_self (above : Above value other path) (new : Value) :
    Above (write value other new) other path := by
  induction other generalizing value path with
  | nil => exact above_nil _ path
  | cons head tail ih =>
      cases path with
      | nil => exact absurd above not_above_nil
      | cons segment rest =>
          obtain ⟨present, same, inner⟩ := above_cons.mp above
          rw [above_cons, slot?_write, slot?_write, below_write_of_same present same]
          exact ⟨present, same, ih (inner.prepared tail)⟩

/-- A path that ends above another one does so after any write, unless the writing ends
above that other one, too. -/
theorem Above.write (above : Above value other path) (way : List String) (new : Value) :
    Above (write value way new) other path ∨ Above (KeyPath.write value way new) way path := by
  induction other generalizing value path way with
  | nil => exact .inl (above_nil _ path)
  | cons head tail ih =>
      cases way with
      | nil => exact .inr (above_nil _ path)
      | cons first others =>
          cases path with
          | nil => exact absurd above not_above_nil
          | cons segment rest =>
              obtain ⟨present, same, inner⟩ := above_cons.mp above
              rw [above_cons, above_cons, slot?_write, slot?_write, slot?_write]
              by_cases meeting : slot? value first = slot? value segment
              · rw [below_write_of_same present meeting]
                exact (ih (inner.prepared others) others).imp (⟨present, same, ·⟩)
                  (⟨present, meeting, ·⟩)
              · rw [below_write_of_ne meeting]
                exact .inl ⟨present, same, inner⟩

/-- A path keeps its route unless the writing ends above its end. -/
theorem route_write (located : none ∉ route value path)
    (notAbove : ¬ Above value other path) (new : Value) :
    route (write value other new) path = route value path := by
  induction path generalizing value other with
  | nil => rfl
  | cons segment rest ih =>
      cases other with
      | nil => exact absurd (above_nil value _) notAbove
      | cons head tail =>
          rw [route, route, slot?_write]
          by_cases meeting : slot? value head = slot? value segment
          · cases rest with
            | nil => rfl
            | cons next rest =>
                have container := isContainer_below located
                rw [route, List.mem_cons, not_or] at located
                rw [below_write_of_same (Ne.symm located.1) meeting,
                  prepared_of_isContainer container, ih located.2]
                intro above
                exact notAbove (above_cons.mpr ⟨Ne.symm located.1, meeting, above⟩)
          · rw [below_write_of_ne meeting]

/-- Writing at a path that does not meet another one leaves what that one leads to. -/
theorem reach_write_of_not_meets (apart : ¬ Meets value path other) (new : Value) :
    reach (write value other new) path = reach value path := by
  induction path generalizing value other with
  | nil => exact absurd (meets_nil value other) apart
  | cons segment rest ih =>
      cases other with
      | nil => exact absurd (meets_of_nil value _) apart
      | cons head tail =>
          rw [meets_cons, not_and] at apart
          rw [reach_cons, reach_cons]
          by_cases meeting : slot? value head = slot? value segment
          · by_cases missing : slot? value segment = none
            · rw [write_cons, fill_of_slot?_eq_none (meeting.trans missing)]
            · have container : (below value segment).isContainer = true := by
                by_contra scalar
                exact apart meeting (meets_of_scalar (by simpa using scalar) rest tail)
              rw [below_write_of_same missing meeting, prepared_of_isContainer container]
              exact ih (apart meeting)
          · rw [below_write_of_ne meeting]

/-- Writing beyond the end of a path is writing into what the path leads to. -/
theorem reach_write_of_beyond {front back : List String} (container : value.isContainer = true)
    (located : none ∉ route value path) (same : route value front = route value path)
    (new : Value) :
    reach (write value (front ++ back) new) path =
      write (prepared back (reach value path)) back new := by
  induction path generalizing value front with
  | nil =>
      have empty : front = [] := by
        apply List.length_eq_zero_iff.mp
        rw [← length_route value front, same]
        rfl
      rw [empty, List.nil_append, reach_nil, reach_nil, prepared_of_isContainer container]
  | cons segment rest ih =>
      cases front with
      | nil => simp [route] at same
      | cons head front =>
          obtain ⟨sameSlot, sameRest⟩ := List.cons.inj same
          rw [below_congr sameSlot] at sameRest
          rw [List.cons_append, reach_cons, reach_cons]
          cases rest with
          | nil =>
              have empty : front = [] := by
                apply List.length_eq_zero_iff.mp
                rw [← length_route (below value segment) front, sameRest]
                rfl
              rw [route, List.mem_cons, not_or] at located
              rw [below_write_of_same (Ne.symm located.1) sameSlot, empty]
              rfl
          | cons next rest =>
              have inner := isContainer_below located
              rw [route, List.mem_cons, not_or] at located
              rw [below_write_of_same (Ne.symm located.1) sameSlot,
                prepared_of_isContainer inner]
              exact ih inner located.2 sameRest

/-- A blocked path stays so unless the writing ends above its end. -/
theorem blocked_write (blocked : Blocked value path) (other : List String) (new : Value) :
    Blocked (write value other new) path ∨ Above (write value other new) other path := by
  induction path generalizing value other with
  | nil => exact absurd blocked (not_blocked_nil value)
  | cons segment rest ih =>
      cases other with
      | nil => exact .inr (above_nil _ _)
      | cons head tail =>
          rw [blocked_cons, above_cons, slot?_write, slot?_write, write_cons, isContainer_fill,
            ← write_cons]
          rcases blocked_cons.mp blocked with noSlot | inner
          · exact .inl (.inl noSlot)
          · by_cases meeting : slot? value head = slot? value segment
            · have container := inner.isContainer
              have present : slot? value segment ≠ none := by
                intro missing
                rw [below_of_slot?_eq_none missing] at container
                cases container
              rw [below_write_of_same present meeting, prepared_of_isContainer container]
              exact (ih inner tail).imp .inr (⟨present, meeting, ·⟩)
            · rw [below_write_of_ne meeting]
              exact .inl (.inr inner)

end Phrasebook.KeyPath
