import Phrasebook.Proofs.KeyPath.Slot

/-!
# Reading and writing along paths

`reach` and `write` are the total forms of following a path and of placing a value
at its end.  Both go through the slots of the path one by one: `write` fills the
first slot with what writing makes of its content, which is prepared to hold the
next segment.  So it is what assigning slot by slot comes to.

A path is blocked where an array stands before a segment that is no index.  Writing
there changes nothing; everywhere else the written value can be read back.
-/

namespace Phrasebook.KeyPath

open Json

variable {value new : Value} {segment : String} {path rest : List String}

/-- The value at the end of a path; what is missing reads as `null`. -/
def reach (value : Value) (path : List String) : Value :=
  path.foldl below value

@[simp] theorem reach_nil (value : Value) : reach value [] = value :=
  rfl

@[simp] theorem reach_cons (value : Value) (segment : String) (rest : List String) :
    reach value (segment :: rest) = reach (below value segment) rest :=
  rfl

theorem reach_append (value : Value) (front back : List String) :
    reach value (front ++ back) = reach (reach value front) back :=
  List.foldl_append ..

@[simp] theorem reach_null (path : List String) : reach .null path = .null := by
  induction path with
  | nil => rfl
  | cons segment rest ih => exact ih

theorem reach_of_scalar (scalar : value.isContainer = false) (proper : path ≠ []) :
    reach value path = .null := by
  cases path with
  | nil => contradiction
  | cons segment rest => rw [reach_cons, below_of_scalar scalar, reach_null]

theorem isContainer_of_reach (proper : path ≠ []) (present : reach value path ≠ .null) :
    value.isContainer = true := by
  by_contra scalar
  exact present (reach_of_scalar (by simpa using scalar) proper)

/-- `reach` reads what following the path finds. -/
theorem getD_follow? (value : Value) (path : List String) :
    (follow? value path).getD .null = reach value path := by
  induction path generalizing value with
  | nil => rfl
  | cons segment rest ih =>
      rw [reach_cons, follow?, below]
      cases child? value segment with
      | none => simp
      | some inner => exact ih inner

theorem reach_of_follow? {found : Value} (follows : follow? value path = some found) :
    reach value path = found := by
  rw [← getD_follow?, follows, Option.getD_some]

theorem follow?_of_reach (present : reach value path ≠ .null) :
    follow? value path = some (reach value path) := by
  rw [← getD_follow?] at present ⊢
  cases follows : follow? value path with
  | none => simp [follows] at present
  | some found => rfl

theorem isTruthy_of_isContainer (container : value.isContainer) : value.isTruthy := by
  cases value <;> first | rfl | simp [Value.isContainer] at container

theorem ne_null_of_isTruthy (truthy : value.isTruthy) : value ≠ .null := by
  rintro rfl
  simp [Value.isTruthy] at truthy

@[simp] theorem prepared_nil (slot : Value) : prepared [] slot = slot :=
  rfl

theorem prepared_cons (segment : String) (rest : List String) (slot : Value) :
    prepared (segment :: rest) slot =
      if slot.isContainer then slot
      else if isIndex segment then .array [] else .object [] :=
  rfl

theorem prepared_of_isContainer (container : value.isContainer) (path : List String) :
    prepared path value = value := by
  cases path with
  | nil => rfl
  | cons segment rest => rw [prepared_cons, if_pos container]

theorem isContainer_prepared (segment : String) (rest : List String) (slot : Value) :
    (prepared (segment :: rest) slot).isContainer := by
  rw [prepared_cons]
  split
  · assumption
  · split <;> rfl

/-- A container made for a segment has a slot for it. -/
theorem slot?_prepared (scalar : value.isContainer = false) (segment : String)
    (rest : List String) :
    (slot? (prepared (segment :: rest) value) segment).isSome := by
  rw [prepared_cons, if_neg (by simp [scalar])]
  split
  · rename_i index
    simpa [slot?, isIndex] using index
  · rfl

/-- Preparing puts nothing into a slot. -/
@[simp] theorem below_prepared (path : List String) (value : Value) (segment : String) :
    below (prepared path value) segment = below value segment := by
  cases path with
  | nil => rfl
  | cons head rest =>
      rw [prepared_cons]
      split
      · rfl
      · rename_i scalar
        rw [below_of_scalar (show value.isContainer = false by simpa using scalar)]
        split
        · simp only [below, child?, List.getElem?_nil]
          cases index? segment <;> rfl
        · rfl

@[simp] theorem reach_prepared (path : List String) (value : Value) :
    reach (prepared path value) path = reach value path := by
  cases path with
  | nil => rfl
  | cons segment rest => simp

/-- The value with another one at the place a path leads to, containers being made on the
way.  There is no such place when an array stands before a segment that is no index. -/
def place? (value : Value) : List String → Value → Option Value
  | [], _ => some value
  | segment :: rest, .object members =>
      let slot := (Table.get? members segment).getD .null
      (place? value rest (prepared rest slot)).map fun inner =>
        .object (Table.put members segment inner)
  | segment :: rest, .array items =>
      (index? segment).bind fun i =>
        let slot := items[i]?.getD .null
        (place? value rest (prepared rest slot)).map fun inner =>
          .array (putItem items i inner)
  | _ :: _, _ => none

/-- The value with another one placed at the end of a path, or as it was if there
is no such place. -/
def write (value : Value) (path : List String) (new : Value) : Value :=
  (place? new path value).getD value

theorem place?_cons (new : Value) (segment : String) (rest : List String)
    (value : Value) :
    place? new (segment :: rest) value =
      if (slot? value segment).isSome then
        (place? new rest (prepared rest (below value segment))).map (fill value segment)
      else none := by
  cases value <;> try rfl
  case array items =>
    cases index : index? segment with
    | none => simp [place?, slot?, index]
    | some i =>
        simp only [place?, index, Option.bind_some, slot?, Option.map_some,
          Option.isSome_some, if_true, below_array index]
        congr 1
        funext inner
        simp only [fill, index]

/-- There is always a place in what was prepared in the room of a scalar. -/
theorem place?_prepared_isSome (scalar : value.isContainer = false)
    (path : List String) (new : Value) :
    (place? new path (prepared path value)).isSome := by
  induction path generalizing value with
  | nil => rfl
  | cons segment rest ih =>
      rw [place?_cons, if_pos (slot?_prepared scalar segment rest), below_prepared,
        below_of_scalar scalar]
      simpa using ih rfl

@[simp] theorem write_nil (value new : Value) : write value [] new = new :=
  rfl

/-- Writing goes through the first slot of a path. -/
@[simp] theorem write_cons (value : Value) (segment : String) (rest : List String)
    (new : Value) :
    write value (segment :: rest) new =
      fill value segment (write (prepared rest (below value segment)) rest new) := by
  cases slot : slot? value segment with
  | none =>
      rw [fill_of_slot?_eq_none slot]
      simp [write, place?_cons, slot]
  | some found =>
      simp only [write, place?_cons, slot, Option.isSome_some, if_true]
      cases placed : place? new rest (prepared rest (below value segment)) with
      | some inner => rfl
      | none =>
          -- Without a place below, the slot holds a container, which stays as it is.
          have container : (below value segment).isContainer := by
            by_contra scalar
            have present := place?_prepared_isSome (by simpa using scalar) rest new
            rw [placed] at present
            simp at present
          rw [Option.map_none, Option.getD_none, Option.getD_none,
            prepared_of_isContainer container,
            fill_below (ne_null_of_isTruthy (isTruthy_of_isContainer container))]

theorem update_eq_fill (value : Value) (segment : String) (change : Value → Value) :
    update value segment change = fill value segment (change (below value segment)) := by
  cases value with
  | array items =>
      cases index : index? segment with
      | none => rw [fill_array_of_name index, update, index]
      | some i => rw [fill_array index, below_array index, update, index]
  | _ => rfl

/-- Writing slot by slot is all or nothing: where it ends early, it has made nothing yet. -/
theorem assign_eq_write (value : Value) (path : List String) (new : Value) :
    assign value path new = write value path new := by
  induction path generalizing value with
  | nil => rfl
  | cons segment rest ih => rw [assign, update_eq_fill, ih, write_cons]

theorem set_eq_write {key : String} (present : segments key ≠ []) (value new : Value) :
    set value key new = write value (segments key) new := by
  unfold set
  split
  · contradiction
  · exact assign_eq_write ..

/-- Writing inside a value leaves its kind as it is. -/
theorem isContainer_write (proper : path ≠ []) (value new : Value) :
    (write value path new).isContainer = value.isContainer := by
  cases path with
  | nil => contradiction
  | cons head rest => simp

/-! ## Blocked paths -/

/-- Somewhere on the path an array stands before a segment that is no index. -/
def Blocked (value : Value) (path : List String) : Prop :=
  ∃ before segment after items, path = before ++ segment :: after ∧
    follow? value before = some (.array items) ∧ index? segment = none

theorem not_blocked_nil (value : Value) : ¬ Blocked value [] := by
  rintro ⟨before, segment, after, items, equal, _⟩
  simp at equal

/-- A path is blocked at its first segment, if a container has no slot for it, or
further on. -/
theorem blocked_cons :
    Blocked value (segment :: rest) ↔
      (value.isContainer ∧ slot? value segment = none) ∨
        Blocked (below value segment) rest := by
  constructor
  · rintro ⟨before, last, after, items, equal, follows, noIndex⟩
    cases before with
    | nil =>
        obtain ⟨rfl, rfl⟩ := List.cons.inj equal
        obtain rfl : value = .array items := by simpa [follow?] using follows
        exact .inl ⟨rfl, by simp [slot?, noIndex]⟩
    | cons head before =>
        obtain ⟨rfl, rfl⟩ := List.cons.inj equal
        refine .inr ⟨before, last, after, items, rfl, ?_, noIndex⟩
        have reached : reach (below value segment) before = .array items := by
          rw [← reach_cons, reach_of_follow? follows]
        rw [follow?_of_reach (by simp [reached]), reached]
  · rintro (⟨container, noSlot⟩ | ⟨before, last, after, items, rfl, follows, noIndex⟩)
    · cases value <;> simp [Value.isContainer] at container
      case array items =>
        exact ⟨[], segment, rest, items, rfl, rfl, by simpa [slot?] using noSlot⟩
      case object members => simp [slot?] at noSlot
    · refine ⟨segment :: before, last, after, items, rfl, ?_, noIndex⟩
      have reached : reach value (segment :: before) = .array items := by
        rw [reach_cons, reach_of_follow? follows]
      rw [follow?_of_reach (by simp [reached]), reached]

instance decidableBlocked (value : Value) : (path : List String) → Decidable (Blocked value path)
  | [] => isFalse (not_blocked_nil value)
  | segment :: rest =>
      have := decidableBlocked (below value segment) rest
      decidable_of_iff _ blocked_cons.symm

theorem Blocked.isContainer (blocked : Blocked value path) : value.isContainer := by
  induction path generalizing value with
  | nil => exact absurd blocked (not_blocked_nil value)
  | cons segment rest ih =>
      rcases blocked_cons.mp blocked with ⟨container, _⟩ | blocked
      · exact container
      · by_contra scalar
        have container := ih blocked
        rw [below_of_scalar (by simpa using scalar)] at container
        simp [Value.isContainer] at container

/-- Nothing blocks a path in an object without members. -/
theorem not_blocked_empty (path : List String) : ¬ Blocked (.object []) path := by
  intro blocked
  cases path with
  | nil => exact not_blocked_nil _ blocked
  | cons segment rest =>
      rcases blocked_cons.mp blocked with ⟨_, noSlot⟩ | deeper
      · cases noSlot
      · cases deeper.isContainer

/-- Nothing can be read at the end of a blocked path. -/
theorem reach_of_blocked (blocked : Blocked value path) : reach value path = .null := by
  induction path generalizing value with
  | nil => exact absurd blocked (not_blocked_nil value)
  | cons segment rest ih =>
      rw [reach_cons]
      rcases blocked_cons.mp blocked with ⟨_, noSlot⟩ | blocked
      · rw [below_of_slot?_eq_none noSlot, reach_null]
      · exact ih blocked

/-- A blocked path cannot be followed to its end. -/
theorem follow?_of_blocked (blocked : Blocked value path) : follow? value path = none := by
  induction path generalizing value with
  | nil => exact absurd blocked (not_blocked_nil value)
  | cons segment rest ih =>
      rw [follow?, Option.bind_eq_none_iff]
      intro inner found
      rcases blocked_cons.mp blocked with ⟨container, noSlot⟩ | deeper
      · cases value with
        | array items =>
            rw [child?_array, slot?_array_eq_none.mp noSlot] at found
            cases found
        | object members => cases noSlot
        | _ => cases container
      · rw [below, found, Option.getD_some] at deeper
        exact ih deeper

/-- Nothing is written at the end of a blocked path. -/
theorem write_of_blocked (blocked : Blocked value path) (new : Value) :
    write value path new = value := by
  induction path generalizing value with
  | nil => exact absurd blocked (not_blocked_nil value)
  | cons segment rest ih =>
      rw [write_cons]
      rcases blocked_cons.mp blocked with ⟨_, noSlot⟩ | blocked
      · exact fill_of_slot?_eq_none noSlot _
      · have container := blocked.isContainer
        rw [prepared_of_isContainer container, ih blocked,
          fill_below (ne_null_of_isTruthy (isTruthy_of_isContainer container))]

theorem blocked_prepared {slot : Value} :
    Blocked (prepared path slot) path ↔ Blocked slot path := by
  constructor
  · intro blocked
    by_cases container : slot.isContainer
    · rwa [prepared_of_isContainer container] at blocked
    · exfalso
      have scalar : slot.isContainer = false := by simpa using container
      cases path with
      | nil => exact not_blocked_nil _ blocked
      | cons segment rest =>
          rcases blocked_cons.mp blocked with ⟨_, noSlot⟩ | blocked
          · have present := slot?_prepared scalar segment rest
            rw [noSlot] at present
            simp at present
          · have container := blocked.isContainer
            rw [below_prepared, below_of_scalar scalar] at container
            simp [Value.isContainer] at container
  · intro blocked
    rwa [prepared_of_isContainer blocked.isContainer]

/-- A written value is found at the end of its path unless the path is blocked. -/
theorem follow?_write (container : path ≠ [] → value.isContainer)
    (free : ¬ Blocked value path) (new : Value) :
    follow? (write value path new) path = some new := by
  induction path generalizing value with
  | nil => rfl
  | cons segment rest ih =>
      rw [blocked_cons, not_or] at free
      obtain ⟨slotted, free⟩ := free
      have present : (slot? value segment).isSome := by
        by_contra missing
        exact slotted ⟨container (by simp), by simpa using missing⟩
      rw [write_cons, follow?, child?_fill_self present, Option.bind_some]
      apply ih
      · intro proper
        obtain ⟨head, tail, rfl⟩ := List.exists_cons_of_ne_nil proper
        exact isContainer_prepared head tail _
      · rwa [blocked_prepared]

/-- A written value can be read back unless the path is blocked. -/
theorem reach_write (container : path ≠ [] → value.isContainer)
    (free : ¬ Blocked value path) (new : Value) :
    reach (write value path new) path = new :=
  reach_of_follow? (follow?_write container free new)

end Phrasebook.KeyPath
