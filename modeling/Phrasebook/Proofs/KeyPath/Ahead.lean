import Phrasebook.Proofs.KeyPath.Growth

/-!
# Running ahead

Let one series of merges end in some value, and let a second series merge at the same
paths what is found there in the end.  At any moment the second is ahead of the first:
place by place it has what the first has, or already all that the first will have.  The
relation is kept by every merge, and when the first series has arrived so has the second.
-/

namespace Phrasebook.KeyPath

open Json

variable {first second last new : Value} {path : List String}

/-- The second value is on the way of the first to the last, or has arrived. -/
inductive Ahead : Value → Value → Value → Prop where
  | arrived {first last : Value} (grows : Grows first last) : Ahead first last last
  | vacant {last : Value} : Ahead .null .null last
  | array {firsts seconds lasts : List Value} (sameLength : firsts.length = seconds.length)
      (inner : ∀ i : Nat, Ahead (firsts[i]?.getD .null) (seconds[i]?.getD .null)
        (lasts[i]?.getD .null)) :
      Ahead (.array firsts) (.array seconds) (.array lasts)
  | object {firsts seconds lasts : List (String × Value)}
      (sameNames : Table.names firsts = Table.names seconds)
      (distinct : (Table.names firsts).Nodup)
      (inner : ∀ name, Ahead (below (.object firsts) name) (below (.object seconds) name)
        (below (.object lasts) name)) :
      Ahead (.object firsts) (.object seconds) (.object lasts)

/-- Both empty containers are on their way to any container of their kind. -/
theorem Ahead.empty_array (lasts : List Value) :
    Ahead (.array []) (.array []) (.array lasts) :=
  .array rfl fun _ => .vacant

theorem Ahead.empty_object (lasts : List (String × Value)) :
    Ahead (.object []) (.object []) (.object lasts) :=
  .object rfl List.nodup_nil fun _ => .vacant

/-- What is prepared in both runs for a path that leads somewhere in the end. -/
theorem Ahead.prepared (ahead : Ahead first second last)
    (grows : Grows (prepared path first) last)
    (present : (reach last path).isTruthy = true) :
    Ahead (prepared path first) (prepared path second) last := by
  cases path with
  | nil => exact ahead
  | cons segment rest =>
      cases ahead with
      | arrived _ =>
          have container : second.isContainer = true :=
            isContainer_of_reach (by simp) (ne_null_of_isTruthy present)
          rw [prepared_of_isContainer container]
          exact .arrived grows
      | vacant =>
          rw [prepared_cons, if_neg (by decide)] at grows ⊢
          split at grows
          · obtain ⟨lasts, rfl, _⟩ := grows.root.array [] rfl
            rw [if_pos ‹_›]
            exact Ahead.empty_array lasts
          · obtain ⟨lasts, rfl, _⟩ := grows.root.object [] rfl
            rw [if_neg ‹_›]
            exact Ahead.empty_object lasts
      | array sameLength inner => exact .array sameLength inner
      | object sameNames distinct inner => exact .object sameNames distinct inner

section
variable {own other : Value}

/-- Items that are put into both arrays. -/
theorem Ahead.put_item {firsts seconds lasts : List Value} {i : Nat}
    (sameLength : firsts.length = seconds.length)
    (inner : ∀ j : Nat, Ahead (firsts[j]?.getD .null) (seconds[j]?.getD .null)
      (lasts[j]?.getD .null))
    (ahead : Ahead own other (lasts[i]?.getD .null)) :
    Ahead (.array (putItem firsts i own)) (.array (putItem seconds i other)) (.array lasts) := by
  refine .array (by simp only [length_putItem, sameLength]) fun j => ?_
  rw [getD_putItem, getD_putItem]
  by_cases equal : j = i
  · rw [if_pos equal, if_pos equal, equal]
    exact ahead
  · rw [if_neg equal, if_neg equal]
    exact inner j

/-- Members that are put into both objects. -/
theorem Ahead.put_member {firsts seconds lasts : List (String × Value)} {segment : String}
    (sameNames : Table.names firsts = Table.names seconds)
    (distinct : (Table.names firsts).Nodup)
    (inner : ∀ name, Ahead (KeyPath.below (.object firsts) name)
      (KeyPath.below (.object seconds) name) (KeyPath.below (.object lasts) name))
    (ahead : Ahead own other (KeyPath.below (.object lasts) segment)) :
    Ahead (.object (Table.put firsts segment own)) (.object (Table.put seconds segment other))
      (.object lasts) := by
  refine .object (Table.names_put_congr sameNames ..) (Table.nodup_names_put distinct ..)
    fun name => ?_
  rw [below_put, below_put]
  by_cases equal : name = segment
  · rw [if_pos equal, if_pos equal, equal]
    exact ahead
  · rw [if_neg equal, if_neg equal]
    exact inner name

end

/-- A merge in the first run and, of what is at the path in the end, in the second. -/
theorem Ahead.merge (ahead : Ahead first second last) (grows : Grows (merge first path new) last)
    (present : (reach last path).isTruthy = true) :
    Ahead (merge first path new) (merge second path (reach last path)) last := by
  induction path generalizing first second last with
  | nil =>
      cases ahead with
      | arrived _ =>
          rw [merge_of_truthy present]
          exact .arrived grows
      | vacant =>
          rw [merge_of_vacant (show ¬ (reach .null []).isTruthy = true by decide)]
          exact .arrived grows
      | array sameLength inner => exact .array sameLength inner
      | object sameNames distinct inner => exact .object sameNames distinct inner
  | cons segment rest ih =>
      -- Below a slot that both runs fill, the merge is one along the rest of the path.
      have step (inner : Ahead (KeyPath.below first segment) (KeyPath.below second segment)
          (KeyPath.below last segment)) (slotted : (slot? first segment).isSome = true) :
          Ahead (KeyPath.merge (KeyPath.prepared rest (KeyPath.below first segment)) rest new)
            (KeyPath.merge (KeyPath.prepared rest (KeyPath.below second segment)) rest
              (reach last (segment :: rest)))
            (KeyPath.below last segment) := by
        have growsInner := grows.below segment
        rw [merge_cons, below_fill_self slotted] at growsInner
        have growsPrepared := (Grows.merge _ rest new).trans growsInner
        exact ih (inner.prepared growsPrepared present) growsInner present
      cases ahead with
      | arrived _ =>
          rw [merge_of_truthy present]
          exact .arrived grows
      | vacant =>
          rw [merge_cons, merge_cons]
          exact .vacant
      | @array firsts seconds lasts sameLength inner =>
          rw [merge_cons, merge_cons]
          cases index : index? segment with
          | none =>
              simp only [fill, index]
              exact .array sameLength inner
          | some i =>
              have merged := step
                (by simpa only [below_array index] using inner i) (by simp [slot?, index])
              simp only [fill, index]
              exact put_item sameLength inner (below_array index ▸ merged)
      | @object firsts seconds lasts sameNames distinct inner =>
          rw [merge_cons, merge_cons]
          exact put_member sameNames distinct inner (step (inner segment) rfl)

/-- A path that is blocked in the first run is blocked in the second. -/
theorem Ahead.blocked (ahead : Ahead first second last) (blocked : Blocked first path) :
    Blocked second path := by
  induction path generalizing first second last with
  | nil => exact absurd blocked (not_blocked_nil first)
  | cons segment rest ih =>
      cases ahead with
      | arrived grows => exact blocked.grows grows
      | vacant => exact absurd blocked.isContainer (by decide)
      | @array firsts seconds lasts sameLength inner =>
          cases index : index? segment with
          | none => exact blocked_cons.mpr (.inl ⟨rfl, by simp [slot?, index]⟩)
          | some i =>
              rcases blocked_cons.mp blocked with ⟨_, noSlot⟩ | blocked
              · simp [slot?, index] at noSlot
              · rw [below_array index] at blocked
                refine blocked_cons.mpr (.inr ?_)
                rw [below_array index]
                exact ih (inner i) blocked
      | object sameNames distinct inner =>
          rcases blocked_cons.mp blocked with ⟨_, noSlot⟩ | blocked
          · simp [slot?] at noSlot
          · exact blocked_cons.mpr (.inr (ih (inner segment) blocked))

/-- Once the first run has arrived, so has the second. -/
theorem Ahead.eq_last (ahead : Ahead first second last) (arrived : first = last) :
    second = last := by
  induction ahead with
  | arrived _ => rfl
  | vacant => exact arrived
  | array sameLength inner ih =>
      obtain rfl := Value.array.inj arrived
      rw [items_ext sameLength.symm fun i => ih i rfl]
  | object sameNames distinct inner ih =>
      obtain rfl := Value.object.inj arrived
      rw [Table.ext_getD sameNames.symm (sameNames ▸ distinct) .null fun name => ih name rfl]

end Phrasebook.KeyPath
