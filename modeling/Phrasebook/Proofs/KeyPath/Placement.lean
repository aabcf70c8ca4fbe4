import Phrasebook.Proofs.KeyPath.Segments

/-!
# Setting is all or nothing

A key is set slot by slot, and it is only on the way that an array can turn out to have
no slot for the next segment.  Still no trace is left of a key that has no place: an array
that stands in the way was there before, so were all containers in front of it, and up to
there nothing had to be made.  Containers that are made always have a slot for the next
segment.
-/

namespace Phrasebook.KeyPath

open Json

variable {container value : Value} {key : String}

/-- A value is set where its key has a place. -/
theorem follow?_set (isContainer : container.isContainer) (present : segments key ≠ [])
    (free : ¬ Blocked container (segments key)) (value : Value) :
    follow? (set container key value) (segments key) = some value := by
  rw [set_eq_write present]
  exact follow?_write (fun _ => isContainer) free value

/-- A key without a place leaves the container as it is. -/
theorem set_of_no_place
    (noPlace : container.isContainer = false ∨ segments key = [] ∨
      Blocked container (segments key))
    (value : Value) : set container key value = container := by
  by_cases empty : segments key = []
  · simp [set, empty]
  · rw [set_eq_write empty]
    rcases noPlace with scalar | missing | blocked
    · obtain ⟨segment, rest, equal⟩ := List.exists_cons_of_ne_nil empty
      rw [equal, write_cons, fill_of_slot?_eq_none (slot?_of_scalar scalar segment)]
    · exact absurd missing empty
    · exact write_of_blocked blocked value

/-- If a container holds members or items, the key has segments and no array of the
container stands before a segment that is no index, then the segments lead to the value
that was set.  The key itself finds it too, unless there is a member that is named by the
whole of a key with several segments.  In all other cases nothing has changed. -/
theorem set_is_all_or_nothing (container : Value) (key : String) (value : Value) :
    let path := segments key
    let after := set container key value
    let hasPlace := container.isContainer = true ∧ path ≠ [] ∧ ¬ Blocked container path
    (hasPlace →
      follow? after path = some value ∧
        (direct? after key = none ∨ path = [key] → get? after key = some value)) ∧
      (¬ hasPlace → after = container) := by
  intro path after hasPlace
  constructor
  · rintro ⟨isContainer, present, free⟩
    have placed : follow? after path = some value := follow?_set isContainer present free value
    refine ⟨placed, ?_⟩
    intro noMember
    rw [get?_eq_follow? noMember present]
    exact placed
  · intro missing
    apply set_of_no_place
    by_cases isContainer : container.isContainer = true
    · by_cases present : path = []
      · exact .inr (.inl present)
      · refine .inr (.inr ?_)
        by_contra free
        exact missing ⟨isContainer, present, free⟩
    · exact .inl (by simpa using isContainer)

/-- A list with one item. -/
def shortList : Value :=
  .object [("list", .array [.string "first"])]

theorem label_behind_short_list_is_set :
    let after := set shortList "list[2].label" (.string "third")
    follow? after ["list", "2", "label"] = some (.string "third") ∧
      get? after "list[2].label" = some (.string "third") ∧
      set shortList "list.name.label" (.string "third") = shortList := by
  intro after
  obtain ⟨placed, found⟩ :=
    (set_is_all_or_nothing shortList "list[2].label" (.string "third")).1 (by decide)
  have noMember : direct? after "list[2].label" = none := rfl
  refine ⟨placed, found (.inl noMember), ?_⟩
  exact (set_is_all_or_nothing shortList "list.name.label" (.string "third")).2 (by decide)

end Phrasebook.KeyPath
