import Phrasebook.Proofs.KeyPath.Placement

/-!
# What setting leaves alone

A key is set through one slot of each container on its path.  A path that leads through
another slot of one of them finds what it found before, with one exception: an array that
was too short is padded, so a place in front of the new item can hold `null` where there
was none.  The containers on the path stay what they are and keep what else they hold.
-/

namespace Phrasebook.KeyPath

open Json

variable {value new inner : Value} {segment head : String}
variable {path front rest tail : List String}

theorem child?_of_scalar (scalar : value.isContainer = false) (segment : String) :
    child? value segment = none := by
  cases value with
  | array items => cases scalar
  | object members => cases scalar
  | _ => rfl

theorem isSome_slot?_of_child? (found : child? value segment = some inner) :
    (slot? value segment).isSome := by
  cases value with
  | object members => rfl
  | array items =>
      rw [child?_array, Option.bind_eq_some_iff] at found
      obtain ⟨i, index, _⟩ := found
      rw [slot?_array_eq_some index]
      rfl
  | _ => cases found

theorem follow?_singleton (value : Value) (segment : String) :
    follow? value [segment] = child? value segment :=
  Option.bind_fun_some _

theorem follow?_of_scalar (scalar : value.isContainer = false) (proper : path ≠ []) :
    follow? value path = none := by
  obtain ⟨segment, rest, rfl⟩ := List.exists_cons_of_ne_nil proper
  rw [follow?, child?_of_scalar scalar, Option.bind_none]

/-- A container is found behind containers only. -/
theorem isContainer_of_follow? (found : follow? value path = some inner)
    (container : inner.isContainer) : value.isContainer := by
  by_cases proper : path = []
  · subst proper
    obtain rfl : value = inner := Option.some.inj found
    exact container
  · by_contra scalar
    rw [follow?_of_scalar (by simpa using scalar) proper] at found
    cases found

theorem follow?_cons (proper : rest ≠ []) (value : Value) (segment : String) :
    follow? value (segment :: rest) = follow? (below value segment) rest := by
  rw [follow?, below]
  cases child? value segment with
  | none => rw [Option.bind_none, Option.getD_none, follow?_of_scalar rfl proper]
  | some inner => rw [Option.bind_some, Option.getD_some]

/-- There is nothing to be found in a container that was made. -/
theorem follow?_prepared (proper : rest ≠ []) (path : List String) (value : Value) :
    follow? (prepared path value) rest = follow? value rest := by
  by_cases container : value.isContainer
  · rw [prepared_of_isContainer container]
  · cases path with
    | nil => rfl
    | cons segment path =>
        obtain ⟨head, tail, rfl⟩ := List.exists_cons_of_ne_nil proper
        have scalar : value.isContainer = false := by simpa using container
        rw [prepared_cons, if_neg container, follow?_of_scalar scalar proper, follow?]
        split
        · rw [child?_array]
          cases index? head <;> rfl
        · rfl

/-- A place that was missing and holds `null` now: in an array that was padded up to the
index of a segment, it lies in front of the item of that index. -/
structure Padded (before after : Value) (front : List String) (segment head : String) :
    Prop where
  missing : follow? before (front ++ [head]) = none
  null : follow? after (front ++ [head]) = some .null
  within : ∃ items i j, follow? after front = some (.array items) ∧
    index? segment = some i ∧ index? head = some j ∧ j < i

/-- Filling a slot leaves the others, but an array may be padded. -/
theorem child?_fill_of_ne (different : segment ≠ head)
    (apart : ∀ items, fill value segment inner = .array items →
      index? segment ≠ index? head) :
    child? (fill value segment inner) head = child? value head ∨
      Padded value (fill value segment inner) [] segment head := by
  cases value with
  | object members =>
      left
      rw [fill_object, child?, child?, Table.get?_put, if_neg different]
  | array items =>
      cases index : index? segment with
      | none => exact .inl (by rw [fill_array_of_name index])
      | some i =>
          rw [fill_array index] at apart ⊢
          cases other : index? head with
          | none => exact .inl (by rw [child?_array, child?_array, other]; rfl)
          | some j =>
              have elsewhere : j ≠ i := by
                rintro rfl
                exact apart _ rfl (index.trans other.symm)
              have now : child? (.array (putItem items i inner)) head =
                  if j < i then some (items[j]?.getD .null) else items[j]? := by
                rw [child?_array, other, Option.bind_some, getElem?_putItem, if_neg elsewhere]
              have once : child? (.array items) head = items[j]? := by
                rw [child?_array, other, Option.bind_some]
              rw [now, once]
              by_cases before : j < i
              · rw [if_pos before]
                cases held : items[j]? with
                | some item => exact .inl rfl
                | none =>
                    rw [held] at now once
                    refine .inr ⟨?_, ?_, _, i, j, rfl, index, other, before⟩
                    · simp [follow?, once]
                    · simp [follow?, now, before]
              · rw [if_neg before]
                exact .inl rfl
  | _ => exact .inl rfl

/-- A path that parts from that of a write finds what it found before, or it ends at a
place that was padded. -/
theorem follow?_write_of_parting (different : segment ≠ head)
    (apart : ∀ items, follow? (write value (front ++ segment :: rest) new) front =
      some (.array items) → index? segment ≠ index? head) :
    follow? (write value (front ++ segment :: rest) new) (front ++ head :: tail) =
        follow? value (front ++ head :: tail) ∨
      tail = [] ∧
        Padded value (write value (front ++ segment :: rest) new) front segment head := by
  induction front generalizing value with
  | nil =>
      simp only [List.nil_append, write_cons, follow?, Option.some.injEq] at apart ⊢
      rcases child?_fill_of_ne different apart with same | padded
      · exact .inl (by rw [same])
      · by_cases last : tail = []
        · exact .inr ⟨last, padded⟩
        · -- Beyond the padding there is as little as there was before.
          have missing := padded.missing
          have null := padded.null
          rw [List.nil_append, follow?_singleton] at missing null
          left
          rw [missing, null, Option.bind_some, Option.bind_none, follow?_of_scalar rfl last]
  | cons first front ih =>
      simp only [List.cons_append] at apart ⊢
      cases slot : slot? value first with
      | none =>
          left
          rw [write_cons, fill_of_slot?_eq_none slot]
      | some found =>
          have present : (slot? value first).isSome := by rw [slot]; rfl
          have passes (path : List String) :
              follow? (write value (first :: (front ++ segment :: rest)) new) (first :: path) =
                follow? (write (prepared (front ++ segment :: rest) (below value first))
                  (front ++ segment :: rest) new) path := by
            rw [write_cons, follow?, child?_fill_self present, Option.bind_some]
          have reads {path : List String} (proper : path ≠ []) :
              follow? value (first :: path) =
                follow? (prepared (front ++ segment :: rest) (below value first)) path := by
            rw [follow?_cons proper, follow?_prepared proper]
          rw [passes, reads (by simp)]
          have apartBelow := fun items reached => apart items ((passes front).trans reached)
          apply (ih apartBelow).imp_right
          rintro ⟨last, padded⟩
          refine ⟨last, ?_, ?_, ?_⟩
          · rw [List.cons_append, reads (by simp)]
            exact padded.missing
          · rw [List.cons_append, passes]
            exact padded.null
          · rw [passes]
            exact padded.within

/-- What a container keeps when something is set through the slot of a segment: its kind,
the members in their order, with at most a new one behind them, and what is in the other
slots. -/
structure Passed (segment : String) (before after : Value) : Prop where
  object : ∀ members, before = .object members → ∃ more, after = .object more ∧
    (Table.names more = Table.names members ∨
      segment ∉ Table.names members ∧
        Table.names more = Table.names members ++ [segment]) ∧
    ∀ name, name ≠ segment → Table.get? more name = Table.get? members name
  array : ∀ items, before = .array items → ∃ more, after = .array more ∧
    items.length ≤ more.length ∧
    ∀ j, index? segment ≠ some j → j < items.length → more[j]? = items[j]?

theorem passed_fill (value : Value) (segment : String) (inner : Value) :
    Passed segment value (fill value segment inner) where
  object := by
    rintro members rfl
    refine ⟨_, fill_object members segment inner, ?_, ?_⟩
    · rw [Table.names_put]
      by_cases known : segment ∈ Table.names members
      · exact .inl (if_pos known)
      · exact .inr ⟨known, if_neg known⟩
    · intro name other
      rw [Table.get?_put, if_neg (Ne.symm other)]
  array := by
    rintro items rfl
    cases index : index? segment with
    | none =>
        exact ⟨items, fill_array_of_name index inner, Nat.le_refl _, fun _ _ _ => rfl⟩
    | some i =>
        refine ⟨_, fill_array index inner, ?_, ?_⟩
        · rw [length_putItem]
          exact Nat.le_max_left ..
        · intro j other bound
          have elsewhere : j ≠ i := fun equal => other (by rw [equal])
          rw [getElem?_putItem, if_neg elsewhere, List.getElem?_eq_getElem bound,
            Option.getD_some, ite_self]

/-- A container on the path of a write is still there and keeps all but one slot. -/
theorem passed_write (found : follow? value front = some inner)
    (container : inner.isContainer) (segment : String) (rest : List String) (new : Value) :
    ∃ after, follow? (write value (front ++ segment :: rest) new) front = some after ∧
      Passed segment inner after := by
  induction front generalizing value with
  | nil =>
      obtain rfl := Option.some.inj found
      rw [List.nil_append, write_cons]
      exact ⟨_, rfl, passed_fill ..⟩
  | cons first front ih =>
      obtain ⟨child, held, reached⟩ := Option.bind_eq_some_iff.mp found
      have inside : below value first = child := by rw [below, held, Option.getD_some]
      have childContainer := isContainer_of_follow? reached container
      rw [List.cons_append, write_cons, follow?, child?_fill_self (isSome_slot?_of_child? held),
        Option.bind_some, inside, prepared_of_isContainer childContainer]
      exact ih reached

/-- Setting a key leaves what other paths lead to, where they part from the path of the key
for another slot, except that a place of a padded array holds `null` instead of nothing.
And each container on the path of the key passes it on through one slot alone. -/
theorem set_touches_only_its_path (container : Value) (key other : String) (value : Value) :
    let after := set container key value
    (∀ front segment rest head tail,
      segments key = front ++ segment :: rest → segments other = front ++ head :: tail →
      segment ≠ head →
      (∀ items, follow? after front = some (.array items) → index? segment ≠ index? head) →
        follow? after (segments other) = follow? container (segments other) ∨
          tail = [] ∧ Padded container after front segment head) ∧
      ∀ front segment rest, segments key = front ++ segment :: rest →
        ∀ before, follow? container front = some before → before.isContainer = true →
          ∃ later, follow? after front = some later ∧ Passed segment before later := by
  intro after
  have written {front : List String} {segment : String} {rest : List String}
      (path : segments key = front ++ segment :: rest) :
      after = write container (front ++ segment :: rest) value := by
    rw [← path]
    exact set_eq_write (by simp [path]) container value
  constructor
  · intro front segment rest head tail path otherPath different apart
    rw [written path] at apart ⊢
    rw [otherPath]
    exact follow?_write_of_parting different apart
  · intro front segment rest path before found isContainer
    rw [written path]
    exact passed_write found isContainer segment rest value

/-- A label is set for the third item of a list that has one: the first item stays, and the
second one is padding. -/
theorem label_touches_no_other_item :
    let after := set shortList "list[2].label" (.string "third")
    follow? after ["list", "0"] = some (.string "first") ∧
      Padded shortList after ["list"] "2" "1" ∧
      ∃ later, follow? after ["list"] = some later ∧
        Passed "2" (.array [.string "first"]) later := by
  intro after
  have touched (other : String) :=
    set_touches_only_its_path shortList "list[2].label" other (.string "third")
  have first := (touched "list.0").1 ["list"] "2" ["label"] "0" [] rfl rfl (by decide)
    (fun _ _ => by decide)
  have second := (touched "list.1").1 ["list"] "2" ["label"] "1" [] rfl rfl (by decide)
    (fun _ _ => by decide)
  have list := (touched "list").2 ["list"] "2" ["label"] rfl _ rfl rfl
  refine ⟨?_, ?_, list⟩
  · apply first.resolve_right
    rintro ⟨_, padded⟩
    cases padded.missing
  · refine (second.resolve_left ?_).2
    intro same
    cases same

end Phrasebook.KeyPath
