import Phrasebook.Proofs.KeyPath.Write
import Phrasebook.Proofs.Text.Runs

/-!
# Segments

Segments are nonempty and hold no separator, so a segment taken as a key is its own
only segment.  Where all member names of an object are segments, no member stands in
the way of the path of a key: the name of the whole key is found only if the key is a
single segment, and then it is the place the path leads to.
-/

namespace Phrasebook.KeyPath

open Json

variable {value found : Value} {key : String}

/-- A segment is its own only segment. -/
theorem segments_of_mem {segment : String} (member : segment ∈ segments key) :
    segments segment = [segment] := by
  obtain ⟨run, runMember, rfl⟩ := List.mem_map.mp member
  rw [segments, String.toList_ofList, Text.runs_of_mem_runs runMember]
  rfl

theorem ne_empty_of_segments (present : segments key ≠ []) : key ≠ "" := by
  rintro rfl
  exact present rfl

/-- No member name of an object needs to be split. -/
def Plain (value : Value) : Prop :=
  ∀ members, value = .object members →
    ∀ name ∈ Table.names members, segments name = [name]

/-- A key is found by its path, unless it has more than one segment and there is a
member that is named by the whole key. -/
theorem get?_eq_follow? (noMember : direct? value key = none ∨ segments key = [key])
    (present : segments key ≠ []) : get? value key = follow? value (segments key) := by
  unfold get?
  split
  · rename_i inner direct
    have single : segments key = [key] := noMember.resolve_left (by simp [direct])
    obtain ⟨held, _⟩ := Option.filter_eq_some_iff.mp direct
    cases value with
    | object members => simp [single, follow?, child?, show Table.get? members key = _ from held]
    | _ => cases held
  · split
    · contradiction
    · rfl

/-- The whole of a key names a member of a plain value only if it is a segment. -/
theorem segments_of_direct? (plain : Plain value) (named : direct? value key = some found) :
    segments key = [key] := by
  obtain ⟨held, _⟩ := Option.filter_eq_some_iff.mp named
  cases value with
  | object members =>
      have member : key ∈ Table.names members :=
        Table.get?_isSome_iff.mp (by rw [show Table.get? members key = _ from held]; rfl)
      exact plain members rfl key member
  | _ => cases held

/-- In a plain value a key is found by its path alone. -/
theorem get?_of_plain (plain : Plain value) (present : segments key ≠ []) :
    get? value key = follow? value (segments key) := by
  apply get?_eq_follow? _ present
  cases named : direct? value key with
  | none => exact .inl rfl
  | some found => exact .inr (segments_of_direct? plain named)

/-- In a plain value nothing is found by a key without segments. -/
theorem get?_of_plain_of_nil (plain : Plain value) (empty : segments key = []) :
    get? value key = none := by
  unfold get?
  split
  · rename_i found named
    rw [segments_of_direct? plain named] at empty
    cases empty
  · rw [empty]

theorem truthy?_eq_some_iff (plain : Plain value) (present : segments key ≠ []) :
    truthy? value key = some found ↔
      reach value (segments key) = found ∧ found.isTruthy := by
  rw [truthy?, get?_of_plain plain present, Option.filter_eq_some_iff]
  constructor
  · rintro ⟨follows, truthy⟩
    exact ⟨reach_of_follow? follows, truthy⟩
  · rintro ⟨rfl, truthy⟩
    exact ⟨follow?_of_reach (ne_null_of_isTruthy truthy), truthy⟩

theorem isSome_truthy?_iff (plain : Plain value) (present : segments key ≠ []) :
    (truthy? value key).isSome ↔ (reach value (segments key)).isTruthy := by
  rw [Option.isSome_iff_exists]
  constructor
  · rintro ⟨found, equal⟩
    obtain ⟨rfl, truthy⟩ := (truthy?_eq_some_iff plain present).mp equal
    exact truthy
  · intro truthy
    exact ⟨_, (truthy?_eq_some_iff plain present).mpr ⟨rfl, truthy⟩⟩

/-- A key has no translation or a given one, if what its path leads to is the given one
or counts as none. -/
theorem truthy?_eq_none_or_some_iff (plain : Plain value) (present : segments key ≠ [])
    (truthy : found.isTruthy) :
    truthy? value key = none ∨ truthy? value key = some found ↔
      ((reach value (segments key)).isTruthy → reach value (segments key) = found) := by
  rw [truthy?_eq_some_iff plain present, ← Option.not_isSome_iff_eq_none,
    isSome_truthy?_iff plain present]
  constructor
  · rintro (vacant | ⟨held, _⟩) taken
    · exact absurd taken vacant
    · exact held
  · intro only
    by_cases taken : (reach value (segments key)).isTruthy
    · exact .inr ⟨only taken, truthy⟩
    · exact .inl taken

theorem get?_eq_some_iff (plain : Plain value) (present : segments key ≠ [])
    (nonnull : found ≠ .null) :
    get? value key = some found ↔ reach value (segments key) = found := by
  rw [get?_of_plain plain present]
  constructor
  · exact reach_of_follow?
  · rintro rfl
    exact follow?_of_reach nonnull

end Phrasebook.KeyPath
