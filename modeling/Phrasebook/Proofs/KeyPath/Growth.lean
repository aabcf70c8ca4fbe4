import Phrasebook.Proofs.KeyPath.Write

/-!
# Growth

Merging a value at a path writes it only where nothing counts as a translation yet.
So a merged value only grows: what counted as a translation still does, a container
keeps its kind, an array gets no shorter, and an object keeps its members in their
order.  The relation holds at every path and is closed under later merges, which
carries facts about one moment of a run to its end.
-/

namespace Phrasebook.KeyPath

open Json

variable {value new before after later : Value} {segment : String}
variable {path rest : List String}

/-- The value with another one placed at the end of a path, unless something that
counts as a translation is there. -/
def merge (value : Value) (path : List String) (new : Value) : Value :=
  if (reach value path).isTruthy then value else write value path new

theorem merge_of_truthy (taken : (reach value path).isTruthy) (new : Value) :
    merge value path new = value :=
  if_pos taken

theorem merge_of_vacant (vacant : ¬ (reach value path).isTruthy) (new : Value) :
    merge value path new = write value path new :=
  if_neg vacant

theorem merge_of_blocked (blocked : Blocked value path) (new : Value) :
    merge value path new = value := by
  rw [merge_of_vacant (by rw [reach_of_blocked blocked]; decide), write_of_blocked blocked]

/-- Merging goes through the first slot of a path, as writing does. -/
theorem merge_cons (value : Value) (segment : String) (rest : List String)
    (new : Value) :
    merge value (segment :: rest) new =
      fill value segment (merge (prepared rest (below value segment)) rest new) := by
  by_cases taken : (reach (below value segment) rest).isTruthy
  · have unprepared : prepared rest (below value segment) = below value segment := by
      cases rest with
      | nil => rfl
      | cons head tail =>
          apply prepared_of_isContainer
          exact isContainer_of_reach (by simp) (ne_null_of_isTruthy taken)
    have held : below value segment ≠ .null := by
      intro null
      rw [null, reach_null] at taken
      simp [Value.isTruthy] at taken
    rw [unprepared, merge_of_truthy taken, merge_of_truthy (by simpa using taken),
      fill_below held]
  · rw [merge_of_vacant (by simpa using taken), write_cons,
      merge_of_vacant (by rwa [reach_prepared])]

/-- After a merge something counts as a translation at the end of a path that is not
blocked. -/
theorem isTruthy_merge (container : path ≠ [] → value.isContainer)
    (free : ¬ Blocked value path) (truthy : new.isTruthy) :
    (reach (merge value path new) path).isTruthy := by
  by_cases taken : (reach value path).isTruthy
  · rwa [merge_of_truthy taken]
  · rwa [merge_of_vacant taken, reach_write container free]

theorem truthy_or_blocked_merge (container : path ≠ [] → value.isContainer)
    (truthy : new.isTruthy) :
    (reach (merge value path new) path).isTruthy ∨ Blocked (merge value path new) path := by
  by_cases blocked : Blocked value path
  · rw [merge_of_blocked blocked]
    exact .inr blocked
  · exact .inl (isTruthy_merge container blocked truthy)

/-- What one place keeps when a value grows. -/
structure Kept (before after : Value) : Prop where
  truthy : before.isTruthy → after.isTruthy
  array : ∀ items, before = .array items →
    ∃ more, after = .array more ∧ items.length ≤ more.length
  object : ∀ members, before = .object members →
    ∃ more, after = .object more ∧ (Table.names members).Sublist (Table.names more)

/-- Every place of the first value is kept in the second. -/
def Grows (before after : Value) : Prop :=
  ∀ path, Kept (reach before path) (reach after path)

theorem Kept.refl (value : Value) : Kept value value :=
  ⟨id, fun items equal => ⟨items, equal, Nat.le_refl _⟩,
    fun members equal => ⟨members, equal, List.Sublist.refl _⟩⟩

theorem Kept.trans (first : Kept before after) (second : Kept after later) :
    Kept before later where
  truthy := second.truthy ∘ first.truthy
  array items equal := by
    obtain ⟨more, equal, shorter⟩ := first.array items equal
    obtain ⟨most, equal, shorter'⟩ := second.array more equal
    exact ⟨most, equal, Nat.le_trans shorter shorter'⟩
  object members equal := by
    obtain ⟨more, equal, sublist⟩ := first.object members equal
    obtain ⟨most, equal, sublist'⟩ := second.object more equal
    exact ⟨most, equal, sublist.trans sublist'⟩

/-- Nothing has to be kept of a value that counts as no translation. -/
theorem Kept.of_falsy (falsy : ¬ before.isTruthy) (after : Value) : Kept before after where
  truthy truthy := absurd truthy falsy
  array items equal := by simp [equal, Value.isTruthy] at falsy
  object members equal := by simp [equal, Value.isTruthy] at falsy

/-- A scalar that counts as a translation may become anything that does. -/
theorem Kept.of_scalar (scalar : before.isContainer = false) (truthy : after.isTruthy) :
    Kept before after where
  truthy _ := truthy
  array items equal := by simp [equal, Value.isContainer] at scalar
  object members equal := by simp [equal, Value.isContainer] at scalar

/-- An object is kept by one that has its members in their order. -/
theorem Kept.of_names {members more : List (String × Value)}
    (names : (Table.names members).Sublist (Table.names more)) :
    Kept (.object members) (.object more) where
  truthy _ := rfl
  array items equal := by cases equal
  object _ equal := by
    obtain rfl := Value.object.inj equal
    exact ⟨more, rfl, names⟩

theorem Kept.fill (value : Value) (segment : String) (inner : Value) :
    Kept value (fill value segment inner) := by
  cases value <;> try exact Kept.refl _
  case array items =>
    cases index : index? segment with
    | none => simpa only [KeyPath.fill, index] using Kept.refl _
    | some i =>
        simp only [KeyPath.fill, index]
        refine ⟨fun _ => rfl, ?_, by simp⟩
        rintro _ ⟨rfl⟩
        exact ⟨_, rfl, by rw [length_putItem]; exact Nat.le_max_left ..⟩
  case object members =>
    exact .of_names (Table.names_sublist_put ..)

/-- A kept container has the same slots. -/
theorem Kept.slot? (kept : Kept before after) (container : before.isContainer)
    (segment : String) : slot? after segment = slot? before segment := by
  cases before <;> simp [Value.isContainer] at container
  case array items =>
    obtain ⟨more, rfl, _⟩ := kept.array items rfl
    rfl
  case object members =>
    obtain ⟨more, rfl, _⟩ := kept.object members rfl
    rfl

namespace Grows

theorem refl (value : Value) : Grows value value :=
  fun _ => Kept.refl _

theorem trans (first : Grows before after) (second : Grows after later) :
    Grows before later :=
  fun path => (first path).trans (second path)

theorem root (grows : Grows before after) : Kept before after :=
  grows []

theorem below (grows : Grows before after) (segment : String) :
    Grows (below before segment) (KeyPath.below after segment) :=
  fun path => grows (segment :: path)

/-- A container stays one. -/
theorem isContainer (grows : Grows before after) (container : before.isContainer) :
    after.isContainer := by
  cases before <;> simp [Value.isContainer] at container
  case array items =>
    obtain ⟨more, rfl, _⟩ := grows.root.array items rfl
    rfl
  case object members =>
    obtain ⟨more, rfl, _⟩ := grows.root.object members rfl
    rfl

/-- What is read at a path grows with the value. -/
theorem reach (grows : Grows before after) (path : List String) :
    Grows (reach before path) (KeyPath.reach after path) := by
  intro rest
  simpa only [← reach_append] using grows (path ++ rest)

/-- A scalar grows into anything that counts as a translation if it did. -/
theorem of_scalar (scalar : before.isContainer = false)
    (kept : before.isTruthy → after.isTruthy) : Grows before after := by
  intro path
  by_cases proper : path = []
  · subst proper
    by_cases truthy : before.isTruthy
    · exact Kept.of_scalar scalar (kept truthy)
    · exact Kept.of_falsy truthy _
  · rw [reach_of_scalar scalar proper]
    exact Kept.of_falsy (by decide) _

theorem prepared (path : List String) (value : Value) :
    Grows value (prepared path value) := by
  by_cases container : value.isContainer
  · rw [prepared_of_isContainer container]
    exact refl value
  · refine of_scalar (by simpa using container) fun truthy => ?_
    cases path with
    | nil => exact truthy
    | cons segment rest =>
        exact isTruthy_of_isContainer (isContainer_prepared segment rest value)

/-- A value grows when the content of one of its slots does. -/
theorem fill {inner : Value} (grows : Grows (KeyPath.below value segment) inner) :
    Grows value (fill value segment inner) := by
  cases slot : slot? value segment with
  | none =>
      rw [fill_of_slot?_eq_none slot]
      exact refl value
  | some found =>
      have present : (slot? value segment).isSome := by rw [slot]; rfl
      intro path
      cases path with
      | nil => exact Kept.fill value segment inner
      | cons head rest =>
          rw [reach_cons, reach_cons]
          by_cases same : slot? value head = slot? value segment
          · rw [below_fill_of_same present same, below_congr same]
            exact grows rest
          · rw [below_fill_of_ne same]
            exact Kept.refl _

theorem write (vacant : ¬ (KeyPath.reach value path).isTruthy) (new : Value) :
    Grows value (write value path new) := by
  induction path generalizing value with
  | nil =>
      apply of_scalar
      · by_contra container
        exact vacant (isTruthy_of_isContainer (by simpa using container))
      · exact fun truthy => absurd truthy vacant
  | cons segment rest ih =>
      rw [write_cons]
      apply fill
      refine (prepared rest _).trans (ih ?_)
      rwa [reach_prepared]

theorem merge (value : Value) (path : List String) (new : Value) :
    Grows value (merge value path new) := by
  by_cases taken : (KeyPath.reach value path).isTruthy
  · rw [merge_of_truthy taken]
    exact refl value
  · rw [merge_of_vacant taken]
    exact write taken new

end Grows

/-- A blocked path stays blocked. -/
theorem Blocked.grows (blocked : Blocked before path) (grows : Grows before after) :
    Blocked after path := by
  obtain ⟨front, segment, back, items, rfl, follows, noIndex⟩ := blocked
  obtain ⟨more, reached, _⟩ := (grows front).array items (reach_of_follow? follows)
  exact ⟨front, segment, back, more, rfl,
    by rw [follow?_of_reach (by simp [reached]), reached], noIndex⟩

end Phrasebook.KeyPath
