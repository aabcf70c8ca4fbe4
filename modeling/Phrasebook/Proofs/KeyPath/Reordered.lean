import Phrasebook.Proofs.KeyPath.Growth

/-!
# Order of members

Two values are reordered forms of each other when members of objects, at any depth, stand
in another order.  Members of one name keep theirs.  Reading and writing along a path
cannot tell such values apart.
-/

namespace Phrasebook.KeyPath

open Json

variable {value new inner other : Value} {segment : String} {path : List String}

/-- Values that differ in the order of object members only. -/
inductive Reordered : Value → Value → Prop where
  | refl (value : Value) : Reordered value value
  | trans {first second third : Value} (left : Reordered first second)
      (right : Reordered second third) : Reordered first third
  | swap (front back : List (String × Value)) {one other : String × Value}
      (different : one.1 ≠ other.1) :
      Reordered (.object (front ++ one :: other :: back))
        (.object (front ++ other :: one :: back))
  | member (front back : List (String × Value)) (name : String) {one other : Value}
      (inner : Reordered one other) :
      Reordered (.object (front ++ (name, one) :: back))
        (.object (front ++ (name, other) :: back))
  | item (front back : List Value) {one other : Value} (inner : Reordered one other) :
      Reordered (.array (front ++ one :: back)) (.array (front ++ other :: back))

theorem Reordered.isContainer (reordered : Reordered value other) :
    other.isContainer = value.isContainer := by
  induction reordered with
  | trans _ _ left right => exact right.trans left
  | _ => rfl

theorem Reordered.isTruthy (reordered : Reordered value other) :
    other.isTruthy = value.isTruthy := by
  induction reordered with
  | trans _ _ left right => exact right.trans left
  | _ => rfl

theorem Reordered.inside (reordered : Reordered value other) (segment : String) :
    Reordered (KeyPath.below value segment) (KeyPath.below other segment) := by
  induction reordered with
  | refl value => exact .refl _
  | trans _ _ left right => exact left.trans right
  | @swap front back one other different =>
      have same : Table.get? (one :: other :: back) segment =
          Table.get? (other :: one :: back) segment := by
        by_cases atOne : one.1 = segment
        · have notOther : other.1 ≠ segment := fun equal => different (atOne.trans equal.symm)
          simp [Table.get?, atOne, notOther]
        · simp [Table.get?, atOne]
      rw [below_object, below_object, Table.get?_append, Table.get?_append, same]
      exact .refl _
  | @member front back name one other inner _ =>
      rw [below_object, below_object, Table.get?_append, Table.get?_append]
      cases Table.get? front segment with
      | some found => exact .refl _
      | none =>
          by_cases equal : name = segment
          · simpa [Table.get?, equal] using inner
          · simpa [Table.get?, equal] using .refl _
  | @item front back one other inner _ =>
      cases index : index? segment with
      | none =>
          rw [below_of_slot?_eq_none (by simp [slot?, index]),
            below_of_slot?_eq_none (by simp [slot?, index])]
          exact .refl _
      | some i =>
          rw [below_array index, below_array index]
          by_cases early : i < front.length
          · rw [List.getElem?_append_left early, List.getElem?_append_left early]
            exact .refl _
          · have late : front.length ≤ i := Nat.le_of_not_lt early
            rw [List.getElem?_append_right late, List.getElem?_append_right late]
            cases i - front.length with
            | zero => exact inner
            | succ j => exact .refl _

/-- The content of a slot may be reordered. -/
theorem Reordered.fill_inner (reordered : Reordered inner other) (value : Value)
    (segment : String) : Reordered (fill value segment inner) (fill value segment other) := by
  cases value <;> try exact .refl _
  case object members =>
    obtain ⟨front, back, split⟩ := Table.put_eq_append members segment
    simp only [fill, split]
    exact .member front back segment reordered
  case array items =>
    cases index : index? segment with
    | none =>
        simp only [fill, index]
        exact .refl _
    | some i =>
        obtain ⟨front, back, split⟩ := putItem_eq_append items i
        simp only [fill, index, split]
        exact .item front back reordered

/-- The container of a slot may be reordered. -/
theorem Reordered.fill (reordered : Reordered value other) (segment : String)
    (inner : Value) : Reordered (fill value segment inner) (KeyPath.fill other segment inner) := by
  induction reordered with
  | refl value => exact .refl _
  | trans _ _ left right => exact left.trans right
  | @swap front back one other different =>
      simp only [KeyPath.fill, Table.put_append]
      by_cases early : segment ∈ Table.names front
      · rw [if_pos early, if_pos early]
        exact .swap _ back different
      · rw [if_neg early, if_neg early]
        by_cases atOne : one.1 = segment
        · have notOther : other.1 ≠ segment := fun equal => different (atOne.trans equal.symm)
          simp only [Table.put, if_pos atOne, if_neg notOther]
          exact .swap front back different
        · by_cases atOther : other.1 = segment
          · simp only [Table.put, if_neg atOne, if_pos atOther]
            exact .swap front back different
          · simp only [Table.put, if_neg atOne, if_neg atOther]
            exact .swap front _ different
  | @member front back name one other content _ =>
      simp only [KeyPath.fill, Table.put_append]
      by_cases early : segment ∈ Table.names front
      · rw [if_pos early, if_pos early]
        exact .member _ back name content
      · rw [if_neg early, if_neg early]
        by_cases equal : name = segment
        · simp only [Table.put, if_pos equal]
          exact .refl _
        · simp only [Table.put, if_neg equal]
          exact .member front _ name content
  | @item front back one other content _ =>
      cases index : index? segment with
      | none =>
          simp only [KeyPath.fill, index]
          exact .item front back content
      | some i =>
          simp only [KeyPath.fill, index, putItem_append]
          by_cases early : i < front.length
          · rw [if_pos early, if_pos early]
            exact .item _ back content
          · rw [if_neg early, if_neg early]
            by_cases equal : i = front.length
            · rw [if_pos equal, if_pos equal]
              exact .refl _
            · rw [if_neg equal, if_neg equal]
              exact .item front _ content

/-- Different slots can be filled in either order. -/
theorem fill_comm {head : String} (different : slot? value segment ≠ slot? value head)
    (first second : Value) :
    Reordered (fill (fill value segment first) head second)
      (fill (fill value head second) segment first) := by
  cases value <;> try exact .refl _
  case object members =>
    have names : segment ≠ head := fun equal => different (by rw [equal])
    simp only [fill]
    rcases Table.put_comm names members first second with same | ⟨left, right⟩
    · rw [same]
      exact .refl _
    · rw [left, right]
      exact .swap members [] names
  case array items =>
    cases index : index? segment with
    | none =>
        have unslotted : slot? (.array items) segment = none := by simp [slot?, index]
        rw [fill_of_slot?_eq_none unslotted,
          fill_of_slot?_eq_none ((slot?_fill _ head segment second).trans unslotted)]
        exact .refl _
    | some i =>
        cases index' : index? head with
        | none =>
            have unslotted : slot? (.array items) head = none := by simp [slot?, index']
            rw [fill_of_slot?_eq_none unslotted,
              fill_of_slot?_eq_none ((slot?_fill _ segment head first).trans unslotted)]
            exact .refl _
        | some j =>
            have places : i ≠ j := fun equal => different (by simp [slot?, index, index', equal])
            simp only [fill, index, index', putItem_comm places items first second]
            exact .refl _

theorem Reordered.reach (reordered : Reordered value other) (path : List String) :
    Reordered (reach value path) (KeyPath.reach other path) := by
  induction path generalizing value other with
  | nil => exact reordered
  | cons segment rest ih => exact ih (reordered.inside segment)

theorem Reordered.prepared (reordered : Reordered value other) (path : List String) :
    Reordered (prepared path value) (KeyPath.prepared path other) := by
  cases path with
  | nil => exact reordered
  | cons segment rest =>
      rw [prepared_cons, prepared_cons, reordered.isContainer]
      split
      · exact reordered
      · exact .refl _

theorem Reordered.write (reordered : Reordered value other) (path : List String)
    (new : Value) : Reordered (write value path new) (KeyPath.write other path new) := by
  induction path generalizing value other with
  | nil => exact .refl new
  | cons segment rest ih =>
      rw [write_cons, write_cons]
      have inner := ih ((reordered.inside segment).prepared rest)
      exact (inner.fill_inner value segment).trans (reordered.fill segment _)

theorem Reordered.merge (reordered : Reordered value other) (path : List String)
    (new : Value) : Reordered (merge value path new) (KeyPath.merge other path new) := by
  have sameTruth := (reordered.reach path).isTruthy
  by_cases taken : (KeyPath.reach value path).isTruthy
  · rwa [merge_of_truthy taken, merge_of_truthy (sameTruth.trans taken)]
  · rw [merge_of_vacant taken, merge_of_vacant (by rwa [sameTruth])]
    exact reordered.write path new

end Phrasebook.KeyPath
