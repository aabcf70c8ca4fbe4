import Mathlib.Data.List.Forall2
import Phrasebook.Proofs.KeyPath.Route

/-!
# Positions

A position is a list of slots, and so it means one place whatever the spelling of the
segments that lead there.  Every scalar in a written value was at its position before, or
the position goes on from the end of the path into the value that was written.
-/

namespace Phrasebook.KeyPath

open Json

variable {value new other scalar : Value} {slot : Slot} {segment : String}
variable {position front back : List Slot} {path : List String}

/-- What is in a slot; `null` if there is nothing, or no such slot. -/
def inSlot (value : Value) (slot : Slot) : Value :=
  match value, slot with
  | .object members, .member name => (Table.get? members name).getD .null
  | .array items, .item i => items[i]?.getD .null
  | _, _ => .null

/-- What is at a position; `null` if there is nothing. -/
def valueAt (value : Value) (position : List Slot) : Value :=
  position.foldl inSlot value

/-- A value that holds no other values and is not `null`. -/
def IsLeaf (value : Value) : Prop :=
  value.isContainer = false ∧ value ≠ .null

instance decidableIsLeaf : (value : Value) → Decidable (IsLeaf value)
  | .null => isFalse fun leaf => leaf.2 rfl
  | .array _ => isFalse fun leaf => nomatch leaf.1
  | .object _ => isFalse fun leaf => nomatch leaf.1
  | .bool _ | .number _ | .string _ => isTrue ⟨rfl, nofun⟩

/-- Whether a segment can stand for a slot. -/
def Fits (slot : Slot) (segment : String) : Prop :=
  match slot with
  | .member name => segment = name
  | .item i => index? segment = some i

@[simp] theorem valueAt_nil (value : Value) : valueAt value [] = value :=
  rfl

@[simp] theorem valueAt_cons (value : Value) (slot : Slot) (rest : List Slot) :
    valueAt value (slot :: rest) = valueAt (inSlot value slot) rest :=
  rfl

theorem valueAt_append (value : Value) (front back : List Slot) :
    valueAt value (front ++ back) = valueAt (valueAt value front) back :=
  List.foldl_append ..

@[simp] theorem valueAt_null (position : List Slot) : valueAt .null position = .null := by
  induction position with
  | nil => rfl
  | cons slot rest ih => exact ih

/-- A position that goes along a path and then on by some slots. -/
def Along (path : List String) (position back : List Slot) : Prop :=
  ∃ front, position = front ++ back ∧ List.Forall₂ Fits front path

/-- A position that goes on by some slots from the place a path leads to in a value. -/
def Under (value : Value) (path : List String) (position back : List Slot) : Prop :=
  ∃ front, position = front ++ back ∧ route value path = front.map some

/-- The content of the slot of a segment is what lies below the segment. -/
theorem inSlot_eq_below (stands : slot? value segment = some slot) :
    inSlot value slot = below value segment := by
  cases value with
  | object members =>
      obtain rfl := Option.some.inj stands
      rfl
  | array items =>
      rw [slot?_array, Option.map_eq_some_iff] at stands
      obtain ⟨i, index, rfl⟩ := stands
      rw [below_array index]
      rfl
  | _ => cases stands

theorem fits_of_slot? (stands : slot? value segment = some slot) : Fits slot segment := by
  cases value with
  | object members =>
      obtain rfl := Option.some.inj stands
      rfl
  | array items =>
      rw [slot?_array, Option.map_eq_some_iff] at stands
      obtain ⟨i, index, rfl⟩ := stands
      exact index
  | _ => cases stands

/-- A segment that fits a slot stands for it wherever there is something in the slot. -/
theorem slot?_of_fits (fits : Fits slot segment) (held : inSlot value slot ≠ .null) :
    slot? value segment = some slot := by
  cases value with
  | object members =>
      cases slot with
      | member name =>
          obtain rfl : segment = name := fits
          rfl
      | item i => exact absurd rfl held
  | array items =>
      cases slot with
      | member name => exact absurd rfl held
      | item i => exact slot?_array_eq_some fits
  | _ => exact absurd rfl held

/-- Filling the slot of a segment leaves the other slots. -/
theorem inSlot_fill (value : Value) (segment : String) (inner : Value) (slot : Slot) :
    inSlot (fill value segment inner) slot =
      if slot? value segment = some slot then inner else inSlot value slot := by
  cases value with
  | object members =>
      cases slot with
      | member name =>
          have same : slot? (.object members) segment = some (.member name) ↔ name = segment := by
            rw [slot?_object, Option.some.injEq, Slot.member.injEq, eq_comm]
          simp only [same]
          exact below_put members segment name inner
      | item i => simp [fill_object, inSlot]
  | array items =>
      cases index : index? segment with
      | none => simp [fill_array_of_name index, slot?_array, index]
      | some j =>
          rw [fill_array index, slot?_array_eq_some index]
          cases slot with
          | member name => simp [inSlot]
          | item i =>
              simp only [inSlot, getD_putItem, Option.some.injEq, Slot.item.injEq]
              simp only [eq_comm]
  | _ => simp [fill, slot?]

/-! ## Leaves of written values -/

theorem not_isLeaf_null : ¬ IsLeaf .null :=
  fun leaf => leaf.2 rfl

/-- An empty container has no leaves. -/
theorem not_isLeaf_of_empty (empty : value = .array [] ∨ value = .object [])
    (position : List Slot) : ¬ IsLeaf (valueAt value position) := by
  intro leaf
  cases position with
  | nil => rcases empty with rfl | rfl <;> cases leaf.1
  | cons slot rest =>
      have nothing : inSlot value slot = .null := by
        rcases empty with rfl | rfl <;> cases slot <;> rfl
      rw [valueAt_cons, nothing, valueAt_null] at leaf
      exact not_isLeaf_null leaf

/-- What is prepared for a path has no leaves of its own. -/
theorem valueAt_prepared (leaf : IsLeaf (valueAt (prepared path value) position)) :
    valueAt (prepared path value) position = valueAt value position := by
  cases path with
  | nil => rfl
  | cons segment rest =>
      rw [prepared_cons] at leaf ⊢
      split
      · rfl
      · rename_i scalar
        rw [if_neg scalar] at leaf
        split at leaf
        · exact absurd leaf (not_isLeaf_of_empty (.inl rfl) position)
        · exact absurd leaf (not_isLeaf_of_empty (.inr rfl) position)

/-- A leaf of a written value was there before, or it is a leaf of what was written at the
end of the path. -/
theorem valueAt_write (leaf : IsLeaf (valueAt (write value path new) position)) :
    valueAt (write value path new) position = valueAt value position ∨
      ∃ back, Along path position back ∧
        valueAt (write value path new) position = valueAt new back := by
  induction path generalizing value position with
  | nil => exact .inr ⟨position, ⟨[], rfl, .nil⟩, rfl⟩
  | cons segment rest ih =>
      rw [write_cons] at leaf ⊢
      cases position with
      | nil =>
          -- A value that is a scalar after filling is as it was.
          have scalar : value.isContainer = false := by
            rw [← isContainer_fill value segment]
            exact leaf.1
          exact .inl (by rw [fill_of_slot?_eq_none (slot?_of_scalar scalar segment)])
      | cons slot others =>
          rw [valueAt_cons, inSlot_fill] at leaf ⊢
          split
          · rename_i stands
            rw [if_pos stands] at leaf
            rw [valueAt_cons, inSlot_eq_below stands]
            rcases ih leaf with same | ⟨back, ⟨front, rfl, fits⟩, same⟩
            · left
              rw [same] at leaf ⊢
              exact valueAt_prepared leaf
            · exact .inr ⟨back, ⟨slot :: front, rfl, .cons (fits_of_slot? stands) fits⟩, same⟩
          · exact .inl rfl

/-- Where slots lead to something, segments that fit them take this route. -/
theorem route_of_fits (fits : List.Forall₂ Fits front path)
    (held : valueAt value front ≠ .null) : route value path = front.map some := by
  induction fits generalizing value with
  | nil => rfl
  | @cons slot segment front path first _ ih =>
      rw [valueAt_cons] at held
      have something : inSlot value slot ≠ .null := by
        intro nothing
        rw [nothing, valueAt_null] at held
        exact held rfl
      have stands := slot?_of_fits first something
      rw [inSlot_eq_below stands] at held
      rw [route, stands, ih held, List.map_cons]

/-- A position along a path is under the place the path leads to, if it holds a leaf. -/
theorem Along.under (along : Along path position back)
    (leaf : IsLeaf (valueAt value position)) : Under value path position back := by
  obtain ⟨front, rfl, fits⟩ := along
  refine ⟨front, rfl, route_of_fits fits ?_⟩
  intro nothing
  rw [valueAt_append, nothing, valueAt_null] at leaf
  exact not_isLeaf_null leaf

theorem valueAt_of_scalar (scalar : value.isContainer = false) (proper : position ≠ []) :
    valueAt value position = .null := by
  obtain ⟨slot, rest, rfl⟩ := List.exists_cons_of_ne_nil proper
  have nothing : inSlot value slot = .null := by
    cases value with
    | array items => cases scalar
    | object members => cases scalar
    | _ => rfl
  rw [valueAt_cons, nothing, valueAt_null]

/-- A scalar keeps every position, as it has none but its own. -/
theorem kept_of_scalar (scalar : value.isContainer = false)
    (kept : value.isTruthy → other.isTruthy) (position : List Slot) :
    Kept (valueAt value position) (valueAt other position) := by
  by_cases proper : position = []
  · subst proper
    by_cases truthy : value.isTruthy
    · exact Kept.of_scalar scalar (kept truthy)
    · exact Kept.of_falsy truthy _
  · rw [valueAt_of_scalar scalar proper]
    exact Kept.of_falsy (by decide) _

theorem kept_prepared (path : List String) (value : Value) (position : List Slot) :
    Kept (valueAt value position) (valueAt (prepared path value) position) := by
  by_cases container : value.isContainer
  · rw [prepared_of_isContainer container]
    exact Kept.refl _
  · exact kept_of_scalar (by simpa using container)
      ((Grows.prepared path value).root.truthy) position

/-- A merge keeps every position, also one that no path leads to. -/
theorem kept_merge (value : Value) (path : List String) (new : Value) (position : List Slot) :
    Kept (valueAt value position) (valueAt (merge value path new) position) := by
  induction path generalizing value position with
  | nil =>
      by_cases taken : (reach value []).isTruthy
      · rw [merge_of_truthy taken]
        exact Kept.refl _
      · have scalar : value.isContainer = false := by
          by_contra container
          exact taken (isTruthy_of_isContainer (by simpa using container))
        exact kept_of_scalar scalar (fun truthy => absurd truthy taken) position
  | cons segment rest ih =>
      rw [merge_cons]
      cases position with
      | nil => exact Kept.fill value segment _
      | cons slot others =>
          rw [valueAt_cons, valueAt_cons, inSlot_fill]
          by_cases stands : slot? value segment = some slot
          · rw [if_pos stands, inSlot_eq_below stands]
            exact (kept_prepared rest _ others).trans (ih _ others)
          · rw [if_neg stands]
            exact Kept.refl _

/-- Where every position is kept, every path is. -/
theorem grows_of_kept
    (kept : ∀ position, Kept (valueAt value position) (valueAt other position)) :
    Grows value other := by
  intro path
  induction path generalizing value other with
  | nil => exact kept []
  | cons segment rest ih =>
      rw [reach_cons, reach_cons]
      cases stands : slot? value segment with
      | none =>
          rw [below_of_slot?_eq_none stands, reach_null]
          exact Kept.of_falsy (by decide) _
      | some slot =>
          have container : value.isContainer := isContainer_of_slot? (by rw [stands]; rfl)
          have root : Kept value other := kept []
          have standsOther : slot? other segment = some slot := by
            rw [root.slot? container, stands]
          rw [← inSlot_eq_below stands, ← inSlot_eq_below standsOther]
          exact ih fun position => kept (slot :: position)

theorem same_number (number : Number) : number.same number = true := by
  cases number with
  | integer value low high => exact beq_self_eq_true value
  | double value => simp [Number.same, Double.same]

/-- A scalar is equal to itself. -/
theorem same_of_scalar (scalar : value.isContainer = false) : value.same value = true := by
  cases value with
  | array items => cases scalar
  | object members => cases scalar
  | null => rfl
  | bool value => exact beq_self_eq_true value
  | number value => exact same_number value
  | string value => exact beq_self_eq_true value

theorem sameItems_getElem? {items others : List Value} (same : Value.sameItems items others = true)
    {i : Nat} {inner : Value} (held : items[i]? = some inner) :
    ∃ content, others[i]? = some content ∧ inner.same content = true := by
  induction items generalizing others i with
  | nil => cases held
  | cons item rest ih =>
      cases others with
      | nil => cases same
      | cons first others =>
          rw [Value.sameItems, Bool.and_eq_true] at same
          cases i with
          | zero =>
              obtain rfl := Option.some.inj held
              exact ⟨first, rfl, same.1⟩
          | succ i => exact ih same.2 held

theorem sameMembers_get? {members others : List (String × Value)}
    (same : Value.sameMembers members others = true) {name : String} {inner : Value}
    (held : Table.get? members name = some inner) :
    ∃ content, Table.get? others name = some content ∧ inner.same content = true := by
  induction members with
  | nil => cases held
  | cons head rest ih =>
      obtain ⟨key, value⟩ := head
      rw [Value.sameMembers, Bool.and_eq_true] at same
      rw [Table.get?_cons] at held
      split at held
      · rename_i equal
        obtain rfl := Option.some.inj held
        rw [← equal]
        cases found : Table.get? others key with
        | none =>
            rw [found] at same
            cases same.1
        | some content =>
            rw [found] at same
            exact ⟨content, rfl, same.1⟩
      · exact ih same.2 held

theorem same_inSlot (same : value.same other = true) (held : inSlot value slot ≠ .null) :
    (inSlot value slot).same (inSlot other slot) = true := by
  cases value with
  | object members =>
      cases other <;> try cases same
      case object others =>
        cases slot with
        | item i => exact absurd rfl held
        | member name =>
            rw [Value.same, Bool.and_eq_true] at same
            simp only [inSlot] at held ⊢
            cases found : Table.get? members name with
            | none => exact absurd (by rw [found]; rfl) held
            | some inner =>
                obtain ⟨content, foundOther, equal⟩ := sameMembers_get? same.2 found
                rw [foundOther]
                exact equal
  | array items =>
      cases other <;> try cases same
      case array others =>
        cases slot with
        | member name => exact absurd rfl held
        | item i =>
            rw [Value.same] at same
            simp only [inSlot] at held ⊢
            cases found : items[i]? with
            | none => exact absurd (by rw [found]; rfl) held
            | some inner =>
                obtain ⟨content, foundOther, equal⟩ := sameItems_getElem? same found
                rw [foundOther]
                exact equal
  | _ => exact absurd rfl held

/-- Equal values have equal leaves at the same positions. -/
theorem same_valueAt (same : value.same other = true)
    (leaf : IsLeaf (valueAt value position)) :
    (valueAt value position).same (valueAt other position) = true := by
  induction position generalizing value other with
  | nil => exact same
  | cons slot rest ih =>
      rw [valueAt_cons] at leaf ⊢
      have held : inSlot value slot ≠ .null := by
        intro nothing
        rw [nothing, valueAt_null] at leaf
        exact not_isLeaf_null leaf
      exact ih (same_inSlot same held) leaf

end Phrasebook.KeyPath
