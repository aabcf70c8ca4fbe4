import Phrasebook.Proofs.KeyPath.Reordered

/-!
# Paths apart

Paths are apart when they part at some segment and what they need there can be one
container: an array for two indices, an object for two names.  Then neither path stands in
the way of the other.  Writing at one of them leaves alone what the other leads to, and it
does not matter which is written first.
-/

namespace Phrasebook.KeyPath

open Json

variable {value new other : Value} {one head : String} {path away : List String}

/-- Segments that stand for different slots, whether of an array or of an object. -/
def Parted (one other : String) : Prop :=
  match index? one, index? other with
  | some i, some j => i ≠ j
  | none, none => one ≠ other
  | _, _ => False

/-- Paths that part at some segment. -/
inductive Apart : List String → List String → Prop where
  | here {one other : String} {rest others : List String} (parted : Parted one other) :
      Apart (one :: rest) (other :: others)
  | later (segment : String) {rest others : List String} (apart : Apart rest others) :
      Apart (segment :: rest) (segment :: others)

instance decidableParted (one other : String) : Decidable (Parted one other) :=
  match first : index? one, second : index? other with
  | some i, some j => decidable_of_iff (i ≠ j) (by simp [Parted, first, second])
  | none, none => decidable_of_iff (one ≠ other) (by simp [Parted, first, second])
  | some _, none => isFalse (by simp [Parted, first, second])
  | none, some _ => isFalse (by simp [Parted, first, second])

theorem not_parted_self (segment : String) : ¬ Parted segment segment := by
  unfold Parted
  cases index? segment <;> simp

theorem Parted.symm (parted : Parted one head) : Parted head one := by
  unfold Parted at parted ⊢
  cases first : index? one <;> cases second : index? head <;>
    simp only [first, second] at parted ⊢
  · exact Ne.symm parted
  · exact Ne.symm parted

theorem isIndex_of_parted (parted : Parted one head) : isIndex one = isIndex head := by
  unfold Parted at parted
  unfold isIndex
  split at parted
  · rename_i first second
    rw [first, second]
    rfl
  · rename_i first second
    rw [first, second]
  · contradiction

/-- Parted segments share no slot of any value. -/
theorem slot?_of_parted (parted : Parted one head) (same : slot? value one = slot? value head) :
    slot? value head = none := by
  unfold Parted at parted
  cases value <;> try rfl
  case array items =>
    split at parted
    · rename_i first second
      simp [slot?, first, second, parted] at same
    · rename_i first second
      simp [slot?, second]
    · contradiction
  case object members =>
    obtain rfl : one = head := by simpa [slot?] using same
    split at parted
    · rename_i first second
      exact absurd (Option.some.inj (first.symm.trans second)) parted
    · contradiction
    · contradiction

theorem below_fill_of_parted (parted : Parted one head) (value inner : Value) :
    below (fill value head inner) one = below value one := by
  by_cases same : slot? value one = slot? value head
  · rw [fill_of_slot?_eq_none (slot?_of_parted parted same)]
  · exact below_fill_of_ne same inner

theorem fill_comm_of_parted (parted : Parted one head) (value first second : Value) :
    Reordered (fill (fill value one first) head second)
      (fill (fill value head second) one first) := by
  by_cases same : slot? value one = slot? value head
  · have noHead := slot?_of_parted parted same
    rw [fill_of_slot?_eq_none noHead, fill_of_slot?_eq_none (same.trans noHead),
      fill_of_slot?_eq_none noHead]
    exact .refl value
  · exact fill_comm same first second

theorem apart_cons {segment : String} {rest others : List String} :
    Apart (segment :: rest) (segment :: others) ↔ Apart rest others := by
  constructor
  · intro apart
    cases apart with
    | here parted => exact absurd parted (not_parted_self segment)
    | later _ apart => exact apart
  · exact .later segment

instance decidableApart : (path away : List String) → Decidable (Apart path away)
  | [], _ => isFalse (by rintro ⟨⟩)
  | _ :: _, [] => isFalse (by rintro ⟨⟩)
  | one :: rest, other :: others =>
      if same : one = other then
        have := decidableApart rest others
        decidable_of_iff (Apart rest others) (by rw [same, apart_cons])
      else
        decidable_of_iff (Parted one other) ⟨.here, by
          rintro (parted | ⟨_, _⟩)
          · exact parted
          · contradiction⟩

namespace Apart

theorem ne_nil (apart : Apart path away) : path ≠ [] ∧ away ≠ [] := by
  cases apart <;> simp

/-- Both paths prepare the same container. -/
theorem prepared_eq (apart : Apart path away) (slot : Value) :
    prepared path slot = prepared away slot := by
  cases apart with
  | here parted => rw [prepared_cons, prepared_cons, isIndex_of_parted parted]
  | later segment apart => rfl

theorem reach_write (apart : Apart path away) (value new : Value) :
    reach (write value away new) path = reach value path := by
  induction apart generalizing value with
  | here parted => rw [write_cons, reach_cons, reach_cons, below_fill_of_parted parted]
  | @later segment rest others apart ih =>
      rw [write_cons, reach_cons, reach_cons]
      cases slot : slot? value segment with
      | none => rw [fill_of_slot?_eq_none slot]
      | some found =>
          rw [below_fill_self (by rw [slot]; rfl), ih, ← apart.prepared_eq, reach_prepared]

theorem blocked_write (apart : Apart path away) (value new : Value) :
    Blocked (write value away new) path ↔ Blocked value path := by
  induction apart generalizing value with
  | here parted =>
      rw [write_cons, blocked_cons, blocked_cons, below_fill_of_parted parted, slot?_fill,
        isContainer_fill]
  | @later segment rest others apart ih =>
      rw [write_cons]
      cases slot : slot? value segment with
      | none => rw [fill_of_slot?_eq_none slot]
      | some found =>
          rw [blocked_cons, blocked_cons, slot?_fill, isContainer_fill,
            below_fill_self (by rw [slot]; rfl), ih, ← apart.prepared_eq, blocked_prepared]

/-- Writes at both paths can be made in either order. -/
theorem write_comm (apart : Apart path away) (value first second : Value) :
    Reordered (write (write value path first) away second)
      (write (write value away second) path first) := by
  induction apart generalizing value with
  | here parted =>
      rw [write_cons, write_cons, write_cons, write_cons,
        below_fill_of_parted parted, below_fill_of_parted parted.symm]
      exact fill_comm_of_parted parted ..
  | @later segment rest others apart ih =>
      rw [write_cons, write_cons, write_cons, write_cons]
      cases slot : slot? value segment with
      | none =>
          rw [fill_of_slot?_eq_none slot, fill_of_slot?_eq_none slot,
            fill_of_slot?_eq_none slot]
          exact .refl value
      | some found =>
          have present : (slot? value segment).isSome = true := by rw [slot]; rfl
          have container (path : List String) (proper : path ≠ []) (new : Value) :
              (write (prepared rest (KeyPath.below value segment)) path new).isContainer = true := by
            obtain ⟨head, tail, equal⟩ := List.exists_cons_of_ne_nil apart.ne_nil.1
            rw [isContainer_write proper, equal]
            exact isContainer_prepared head tail _
          rw [below_fill_self present, below_fill_self present, fill_fill, fill_fill,
            ← apart.prepared_eq (KeyPath.below value segment),
            prepared_of_isContainer (container rest apart.ne_nil.1 first),
            prepared_of_isContainer (container others apart.ne_nil.2 second)]
          exact (ih _).fill_inner value segment

/-- A merge sees and changes nothing of what the other path leads to. -/
theorem reach_merge (apart : Apart path away) (value new : Value) :
    reach (merge value away new) path = reach value path := by
  unfold merge
  split
  · rfl
  · exact apart.reach_write value new

theorem blocked_merge (apart : Apart path away) (value new : Value) :
    Blocked (merge value away new) path ↔ Blocked value path := by
  unfold merge
  split
  · rfl
  · exact apart.blocked_write value new

theorem symm (apart : Apart path away) : Apart away path := by
  induction apart with
  | here parted => exact .here parted.symm
  | later segment _ ih => exact .later segment ih

theorem merge_comm (apart : Apart path away) (value first second : Value) :
    Reordered (merge (merge value path first) away second)
      (merge (merge value away second) path first) := by
  have samePath := apart.reach_merge value second
  have sameAway := apart.symm.reach_merge value first
  by_cases taken : (reach value path).isTruthy = true
  · have takenLater : (reach (merge value away second) path).isTruthy = true := by
      rwa [samePath]
    rw [merge_of_truthy taken, merge_of_truthy takenLater]
    exact .refl _
  · have vacantLater : ¬ (reach (merge value away second) path).isTruthy = true := by
      rwa [samePath]
    by_cases takenAway : (reach value away).isTruthy = true
    · have takenAwayLater : (reach (merge value path first) away).isTruthy = true := by
        rwa [sameAway]
      rw [merge_of_truthy takenAwayLater, merge_of_truthy takenAway]
      exact .refl _
    · have vacantAwayLater : ¬ (reach (merge value path first) away).isTruthy = true := by
        rwa [sameAway]
      rw [merge_of_vacant vacantAwayLater, merge_of_vacant vacantLater,
        merge_of_vacant taken, merge_of_vacant takenAway]
      exact apart.write_comm value first second

end Apart
end Phrasebook.KeyPath
