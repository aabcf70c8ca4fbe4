import Phrasebook.KeyPath
import Phrasebook.Proofs.Table

/-!
# Slots

A segment stands for a slot of a container: a member of an object or, if it is an
index, an item of an array.  Reading below a segment and filling its slot are total
here: what is missing reads as `null`, and a value without the slot stays as it is.
So the laws of a path can be stated segment by segment, without a case for failure.
-/

namespace Phrasebook.KeyPath

open Json

@[simp] theorem length_putItem (items : List Value) (i : Nat) (value : Value) :
    (putItem items i value).length = max items.length (i + 1) := by
  induction items, i using putItem.induct with
  | case1 => rfl
  | case2 i ih => simp only [putItem, List.length_cons, ih, List.length_nil]; omega
  | case3 item rest => simp [putItem]
  | case4 item rest i ih => simp only [putItem, List.length_cons, ih]; omega

/-- The new item stands at its place, with items in front of it that were there or are
`null`. -/
theorem getElem?_putItem (items : List Value) (i j : Nat) (value : Value) :
    (putItem items i value)[j]? =
      if j = i then some value
      else if j < i then some (items[j]?.getD .null)
      else items[j]? := by
  induction items, i using putItem.induct generalizing j with
  | case1 => cases j <;> simp [putItem]
  | case2 i ih =>
      cases j with
      | zero => simp [putItem]
      | succ j => simpa [putItem] using ih j
  | case3 item rest => cases j <;> simp [putItem]
  | case4 item rest i ih =>
      cases j with
      | zero => simp [putItem]
      | succ j => simpa [putItem] using ih j

/-- The places between the end of the list and the new item read as `null`, as they
did before. -/
theorem getD_putItem (items : List Value) (i j : Nat) (value : Value) :
    (putItem items i value)[j]?.getD .null =
      if j = i then value else items[j]?.getD .null := by
  rw [getElem?_putItem]
  split
  · rfl
  · split
    · rfl
    · rfl

/-- Lists of one length are equal when they agree at every place. -/
theorem items_ext {left right : List Value} (sameLength : left.length = right.length)
    (agree : ∀ i : Nat, left[i]?.getD .null = right[i]?.getD .null) : left = right := by
  apply List.ext_getElem sameLength
  intro i leftBound rightBound
  simpa [leftBound, rightBound] using agree i

theorem putItem_of_getElem? {items : List Value} {i : Nat} {value : Value}
    (found : items[i]? = some value) : putItem items i value = items := by
  obtain ⟨bound, _⟩ := List.getElem?_eq_some_iff.mp found
  apply items_ext
  · rw [length_putItem]
    omega
  · intro j
    rw [getD_putItem]
    split
    · rename_i equal
      rw [equal, found, Option.getD_some]
    · rfl

@[simp] theorem putItem_putItem (items : List Value) (i : Nat) (first second : Value) :
    putItem (putItem items i first) i second = putItem items i second := by
  apply items_ext
  · simp
  · intro j
    simp only [getD_putItem]
    split <;> rfl

theorem putItem_comm {i j : Nat} (different : i ≠ j) (items : List Value)
    (first second : Value) :
    putItem (putItem items i first) j second =
      putItem (putItem items j second) i first := by
  apply items_ext
  · simp only [length_putItem]
    omega
  · intro k
    simp only [getD_putItem]
    by_cases atFirst : k = i
    · have notSecond : k ≠ j := atFirst ▸ different
      simp [atFirst, different]
    · simp [atFirst]

theorem putItem_eq_append (items : List Value) (i : Nat) :
    ∃ front back, ∀ value, putItem items i value = front ++ value :: back := by
  induction items, i using putItem.induct with
  | case1 => exact ⟨[], [], fun _ => rfl⟩
  | case2 i ih =>
      obtain ⟨front, back, split⟩ := ih
      exact ⟨.null :: front, back, fun value => by simp [putItem, split]⟩
  | case3 item rest => exact ⟨[], rest, fun _ => rfl⟩
  | case4 item rest i ih =>
      obtain ⟨front, back, split⟩ := ih
      exact ⟨item :: front, back, fun value => by simp [putItem, split]⟩

/-- An item put into a list, before, at or behind one of its items. -/
theorem putItem_append (front back : List Value) (item : Value) (i : Nat) (value : Value) :
    putItem (front ++ item :: back) i value =
      if i < front.length then putItem front i value ++ item :: back
      else if i = front.length then front ++ value :: back
      else front ++ item :: putItem back (i - front.length - 1) value := by
  induction front generalizing i with
  | nil =>
      cases i with
      | zero => rfl
      | succ i => simp [putItem]
  | cons head front ih =>
      cases i with
      | zero => simp [putItem]
      | succ i =>
          simp only [List.cons_append, putItem, ih, List.length_cons, Nat.add_lt_add_iff_right,
            Nat.add_right_cancel_iff, Nat.add_sub_add_right]
          split
          · rfl
          · split <;> rfl

/-! ## Slots of a value -/

/-- A place directly inside a container. -/
inductive Slot where
  | member (name : String)
  | item (index : Nat)
  deriving DecidableEq

/-- The slot a segment stands for in a value.  A scalar has no slots, and an array
has none for a segment that is no index. -/
def slot? (value : Value) (segment : String) : Option Slot :=
  match value with
  | .object _ => some (.member segment)
  | .array _ => (index? segment).map .item
  | _ => none

/-- What is in the slot of a segment; `null` if nothing is. -/
def below (value : Value) (segment : String) : Value :=
  (child? value segment).getD .null

/-- The value with the slot of a segment filled, an array being padded if needed. -/
def fill (value : Value) (segment : String) (inner : Value) : Value :=
  match value with
  | .object members => .object (Table.put members segment inner)
  | .array items =>
      match index? segment with
      | some i => .array (putItem items i inner)
      | none => .array items
  | other => other

section
variable {value inner : Value} {segment other : String} {items : List Value} {i : Nat}

@[simp] theorem slot?_object (members : List (String × Value)) (segment : String) :
    slot? (.object members) segment = some (.member segment) :=
  rfl

theorem slot?_array (items : List Value) (segment : String) :
    slot? (.array items) segment = (index? segment).map .item :=
  rfl

@[simp] theorem below_object (members : List (String × Value)) (segment : String) :
    below (.object members) segment = (Table.get? members segment).getD .null :=
  rfl

theorem below_put (members : List (String × Value)) (segment other : String)
    (inner : Value) :
    below (.object (Table.put members segment inner)) other =
      if other = segment then inner else below (.object members) other := by
  rw [below_object, below_object, Table.get?_put]
  by_cases equal : other = segment
  · rw [if_pos equal, if_pos equal.symm, Option.getD_some]
  · rw [if_neg equal, if_neg (Ne.symm equal)]

theorem child?_array (items : List Value) (segment : String) :
    child? (.array items) segment = (index? segment).bind fun i => items[i]? :=
  rfl

theorem below_array (index : index? segment = some i) :
    below (.array items) segment = items[i]?.getD .null := by
  rw [below, child?_array, index, Option.bind_some]

theorem below_array_of_name (name : index? segment = none) :
    below (.array items) segment = .null := by
  rw [below, child?_array, name, Option.bind_none, Option.getD_none]

theorem fill_object (members : List (String × Value)) (segment : String) (inner : Value) :
    fill (.object members) segment inner = .object (Table.put members segment inner) :=
  rfl

theorem fill_array_eq (items : List Value) (segment : String) (inner : Value) :
    fill (.array items) segment inner =
      .array ((index? segment).elim items fun i => putItem items i inner) := by
  unfold fill
  cases index? segment <;> rfl

theorem fill_array (index : index? segment = some i) (inner : Value) :
    fill (.array items) segment inner = .array (putItem items i inner) := by
  rw [fill_array_eq, index, Option.elim_some]

theorem fill_array_of_name (name : index? segment = none) (inner : Value) :
    fill (.array items) segment inner = .array items := by
  rw [fill_array_eq, name, Option.elim_none]

theorem slot?_array_eq_some (index : index? segment = some i) :
    slot? (.array items) segment = some (.item i) := by
  rw [slot?_array, index, Option.map_some]

theorem slot?_array_eq_none :
    slot? (.array items) segment = none ↔ index? segment = none := by
  rw [slot?_array, Option.map_eq_none_iff]

theorem below_of_scalar (scalar : value.isContainer = false) (segment : String) :
    below value segment = .null := by
  cases value with
  | array items => cases scalar
  | object members => cases scalar
  | _ => rfl

theorem below_of_slot?_eq_none (missing : slot? value segment = none) :
    below value segment = .null := by
  cases value with
  | array items => exact below_array_of_name (slot?_array_eq_none.mp missing)
  | object members => cases missing
  | _ => rfl

theorem fill_of_slot?_eq_none (missing : slot? value segment = none) (inner : Value) :
    fill value segment inner = value := by
  cases value with
  | array items => exact fill_array_of_name (slot?_array_eq_none.mp missing) inner
  | object members => cases missing
  | _ => rfl

theorem slot?_of_scalar (scalar : value.isContainer = false) (segment : String) :
    slot? value segment = none := by
  cases value with
  | array items => cases scalar
  | object members => cases scalar
  | _ => rfl

theorem isContainer_of_slot? (present : (slot? value segment).isSome) :
    value.isContainer := by
  cases value with
  | array items => rfl
  | object members => rfl
  | _ => cases present

@[simp] theorem slot?_fill (value : Value) (segment other : String) (inner : Value) :
    slot? (fill value segment inner) other = slot? value other := by
  cases value with
  | array items => rw [fill_array_eq, slot?_array, slot?_array]
  | _ => rfl

@[simp] theorem isContainer_fill (value : Value) (segment : String) (inner : Value) :
    (fill value segment inner).isContainer = value.isContainer := by
  cases value with
  | array items =>
      rw [fill_array_eq]
      rfl
  | _ => rfl

/-- What fills a slot is found there, even if it is `null`. -/
theorem child?_fill_self (present : (slot? value segment).isSome) (inner : Value) :
    child? (fill value segment inner) segment = some inner := by
  cases value with
  | object members => rw [fill_object, child?, Table.get?_put, if_pos rfl]
  | array items =>
      obtain ⟨i, index⟩ : ∃ i, index? segment = some i := by
        rwa [slot?_array, Option.isSome_map, Option.isSome_iff_exists] at present
      rw [fill_array index, child?_array, index, Option.bind_some, getElem?_putItem, if_pos rfl]
  | _ => cases present

/-- A filled slot holds what was put there, whichever segment it is read by. -/
theorem below_fill_of_same (present : (slot? value segment).isSome)
    (same : slot? value other = slot? value segment) (inner : Value) :
    below (fill value segment inner) other = inner := by
  cases value with
  | object members =>
      obtain rfl : other = segment := Slot.member.inj (Option.some.inj same)
      rw [fill_object, below_put, if_pos rfl]
  | array items =>
      obtain ⟨i, index⟩ : ∃ i, index? segment = some i := by
        rwa [slot?_array, Option.isSome_map, Option.isSome_iff_exists] at present
      rw [slot?_array, slot?_array_eq_some index, Option.map_eq_some_iff] at same
      obtain ⟨j, found, equal⟩ := same
      rw [fill_array index, below_array found, getD_putItem, if_pos (Slot.item.inj equal)]
  | _ => cases present

@[simp] theorem below_fill_self (present : (slot? value segment).isSome)
    (inner : Value) : below (fill value segment inner) segment = inner :=
  below_fill_of_same present rfl inner

/-- Segments that stand for one slot read the same. -/
theorem below_congr (same : slot? value other = slot? value segment) :
    below value other = below value segment := by
  cases value with
  | object members => rw [Slot.member.inj (Option.some.inj same)]
  | array items =>
      have sameIndex : index? other = index? segment :=
        Option.map_injective (fun _ _ equal => Slot.item.inj equal) same
      rw [below, below, child?_array, child?_array, sameIndex]
  | _ => rfl

/-- The other slots read as before. -/
theorem below_fill_of_ne (different : slot? value other ≠ slot? value segment)
    (inner : Value) :
    below (fill value segment inner) other = below value other := by
  cases value with
  | object members =>
      have names : other ≠ segment := fun equal => different (by rw [equal])
      rw [fill_object, below_put, if_neg names]
  | array items =>
      cases index : index? segment with
      | none => rw [fill_array_of_name index]
      | some i =>
          rw [fill_array index]
          cases found : index? other with
          | none => rw [below_array_of_name found, below_array_of_name found]
          | some j =>
              have notSame : j ≠ i := fun equal => different (by
                rw [slot?_array_eq_some index, slot?_array_eq_some found, equal])
              rw [below_array found, below_array found, getD_putItem, if_neg notSame]
  | _ => rfl

@[simp] theorem fill_fill (value : Value) (segment : String) (first second : Value) :
    fill (fill value segment first) segment second = fill value segment second := by
  cases value with
  | object members => rw [fill_object, fill_object, fill_object, Table.put_put]
  | array items =>
      cases index : index? segment with
      | none => rw [fill_array_of_name index]
      | some i => rw [fill_array index, fill_array index, fill_array index, putItem_putItem]
  | _ => rfl

/-- Filling a slot with what it holds changes nothing. -/
theorem fill_below (held : below value segment ≠ .null) :
    fill value segment (below value segment) = value := by
  cases value with
  | object members =>
      rw [below_object] at held ⊢
      cases found : Table.get? members segment with
      | none => exact absurd (by rw [found, Option.getD_none]) held
      | some inner => rw [Option.getD_some, fill_object, Table.put_of_get? found]
  | array items =>
      cases index : index? segment with
      | none => rw [fill_array_of_name index]
      | some i =>
          rw [below_array index] at held ⊢
          cases found : items[i]? with
          | none => exact absurd (by rw [found, Option.getD_none]) held
          | some inner => rw [Option.getD_some, fill_array index, putItem_of_getElem? found]
  | _ => rfl

end
end Phrasebook.KeyPath
