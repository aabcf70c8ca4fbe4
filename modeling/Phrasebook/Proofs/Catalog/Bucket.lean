import Mathlib.Data.List.Induction
import Phrasebook.Catalog
import Phrasebook.Proofs.KeyPath.Growth
import Phrasebook.Proofs.KeyPath.Segments

/-!
# Mapping and bucket

The output of a locale has two parts that never meet: the content, made of keys, and
the bucket of signatures in front of it.  An accepted key does not begin with the name
of the bucket, so it is read and written as if there were no bucket, and recording a
signature leaves the content alone.
-/

namespace Phrasebook.Catalog

open Json KeyPath

variable {value new : Value} {key : String} {signatures : List String}

theorem accepts_iff :
    accepts key = true ↔
      ∃ segment rest, segments key = segment :: rest ∧ segment ≠ unknownBucket := by
  unfold accepts
  cases path : segments key with
  | nil => simp
  | cons segment rest => simp

theorem segments_ne_nil (accepted : accepts key = true) : segments key ≠ [] := by
  obtain ⟨segment, rest, equal, _⟩ := accepts_iff.mp accepted
  simp [equal]

/-- The text of an accepted key counts as a translation. -/
theorem isTruthy_string_key (accepted : accepts key = true) :
    (Value.string key).isTruthy = true := by
  simpa [Value.isTruthy] using ne_empty_of_segments (segments_ne_nil accepted)

/-- An object that keys were merged into: its members are named by first segments of
accepted keys. -/
def Mapping (value : Value) : Prop :=
  ∃ members, value = .object members ∧
    ∀ name ∈ Table.names members, segments name = [name] ∧ name ≠ unknownBucket

theorem mapping_empty : Mapping (.object []) :=
  ⟨[], rfl, by simp⟩

namespace Mapping

theorem isContainer (mapping : Mapping value) : value.isContainer = true := by
  obtain ⟨members, rfl, _⟩ := mapping
  rfl

theorem plain (mapping : Mapping value) : Plain value := by
  obtain ⟨members, rfl, named⟩ := mapping
  rintro _ ⟨rfl⟩ name member
  exact (named name member).1

theorem write (mapping : Mapping value) (accepted : accepts key = true) (new : Value) :
    Mapping (write value (segments key) new) := by
  obtain ⟨members, rfl, named⟩ := mapping
  obtain ⟨segment, rest, equal, reserved⟩ := accepts_iff.mp accepted
  have member : segment ∈ segments key := by simp [equal]
  have single := segments_of_mem member
  rw [equal, write_cons]
  refine ⟨_, rfl, fun name member => ?_⟩
  rcases Table.mem_names_put.mp member with rfl | member
  · exact ⟨single, reserved⟩
  · exact named name member

theorem merge (mapping : Mapping value) (accepted : accepts key = true) (new : Value) :
    Mapping (merge value (segments key) new) := by
  unfold KeyPath.merge
  split
  · exact mapping
  · exact mapping.write accepted new

theorem set_eq_write (accepted : accepts key = true) (value new : Value) :
    set value key new = KeyPath.write value (segments key) new :=
  KeyPath.set_eq_write (segments_ne_nil accepted) value new

end Mapping

theorem segments_unknownBucket : segments unknownBucket = [unknownBucket] := by
  decide

/-- The entries of a bucket: every signature stands for itself. -/
def bucketEntries (signatures : List String) : List (String × Value) :=
  Table.ofEntries (signatures.map fun signature => (signature, .string signature))

/-- An output made of a content and the signatures recorded beside it. -/
def withBucket (signatures : List String) (content : Value) : Value :=
  match signatures, content with
  | [], content => content
  | _, .object members =>
      .object ((unknownBucket, .object (bucketEntries signatures)) :: members)
  | _, content => content

@[simp] theorem withBucket_nil (content : Value) : withBucket [] content = content :=
  rfl

theorem withBucket_object (nonempty : signatures ≠ [])
    (members : List (String × Value)) :
    withBucket signatures (.object members) =
      .object ((unknownBucket, .object (bucketEntries signatures)) :: members) := by
  cases signatures with
  | nil => contradiction
  | cons signature rest => rfl

theorem bucketEntries_append (signatures : List String) (signature : String) :
    bucketEntries (signatures ++ [signature]) =
      Table.put (bucketEntries signatures) signature (.string signature) := by
  simp [bucketEntries, Table.ofEntries, List.foldl_append]

/-- An entry of a bucket is a recorded signature, and its value is its name. -/
theorem get?_bucketEntries (signatures : List String) (name : String) :
    Table.get? (bucketEntries signatures) name =
      if name ∈ signatures then some (.string name) else none := by
  induction signatures using List.reverseRecOn with
  | nil => rfl
  | append_singleton earlier signature ih =>
      rw [bucketEntries_append, Table.get?_put, ih]
      by_cases last : signature = name
      · simp [last]
      · simp [last, Ne.symm last]

/-- Recording a signature once more changes nothing. -/
theorem bucketEntries_of_mem {signature : String} (known : signature ∈ signatures) :
    bucketEntries (signatures ++ [signature]) = bucketEntries signatures := by
  rw [bucketEntries_append]
  exact Table.put_of_get? (by rw [get?_bucketEntries, if_pos known])

/-- Below an accepted segment the bucket is not seen. -/
theorem child?_withBucket {segment : String} (reserved : segment ≠ unknownBucket)
    (signatures : List String) (content : Value) :
    child? (withBucket signatures content) segment = child? content segment := by
  cases signatures with
  | nil => rfl
  | cons signature rest =>
      cases content <;> try rfl
      case object members =>
        rw [withBucket_object (by simp)]
        simp [child?, Table.get?, Ne.symm reserved]

theorem below_withBucket {segment : String} (reserved : segment ≠ unknownBucket)
    (signatures : List String) (content : Value) :
    below (withBucket signatures content) segment = below content segment := by
  rw [below, child?_withBucket reserved, ← below]

/-- A bucket blocks no path of an accepted key. -/
theorem blocked_withBucket (mapping : Mapping value) (accepted : accepts key = true)
    (signatures : List String) :
    Blocked (withBucket signatures value) (segments key) ↔ Blocked value (segments key) := by
  cases signatures with
  | nil => rfl
  | cons signature rest =>
      obtain ⟨segment, path, equal, reserved⟩ := accepts_iff.mp accepted
      obtain ⟨members, rfl, named⟩ := mapping
      rw [equal, blocked_cons, blocked_cons, below_withBucket reserved,
        withBucket_object (by simp)]
      simp [slot?]

theorem plain_withBucket (mapping : Mapping value) (signatures : List String) :
    Plain (withBucket signatures value) := by
  cases signatures with
  | nil => exact mapping.plain
  | cons signature rest =>
      obtain ⟨members, rfl, named⟩ := mapping
      rw [withBucket_object (by simp)]
      rintro _ ⟨rfl⟩ name member
      rcases List.mem_cons.mp member with rfl | member
      · exact segments_unknownBucket
      · exact (named name member).1

/-- An accepted key is looked up in the content. -/
theorem get?_withBucket (mapping : Mapping value) (accepted : accepts key = true)
    (signatures : List String) :
    get? (withBucket signatures value) key = get? value key := by
  have present := segments_ne_nil accepted
  rw [get?_of_plain (plain_withBucket mapping signatures) present,
    get?_of_plain mapping.plain present]
  obtain ⟨segment, rest, equal, reserved⟩ := accepts_iff.mp accepted
  rw [equal, follow?, follow?, child?_withBucket reserved]

theorem truthy?_withBucket (mapping : Mapping value) (accepted : accepts key = true)
    (signatures : List String) :
    truthy? (withBucket signatures value) key = truthy? value key := by
  rw [truthy?, truthy?, get?_withBucket mapping accepted]

/-- An accepted key is written into the content. -/
theorem set_withBucket (mapping : Mapping value) (accepted : accepts key = true)
    (signatures : List String) (new : Value) :
    set (withBucket signatures value) key new =
      withBucket signatures (set value key new) := by
  rw [Mapping.set_eq_write accepted, Mapping.set_eq_write accepted]
  obtain ⟨segment, rest, equal, reserved⟩ := accepts_iff.mp accepted
  obtain ⟨members, rfl, named⟩ := mapping
  by_cases empty : signatures = []
  · subst empty
    rfl
  · rw [equal, write_cons, write_cons, below_withBucket reserved, withBucket_object empty]
    have head : ¬ unknownBucket = segment := Ne.symm reserved
    simp only [fill, Table.put, if_neg head, withBucket_object empty]

theorem bucketHas_withBucket (mapping : Mapping value) (signatures : List String)
    (signature : String) :
    bucketHas (withBucket signatures value) signature = decide (signature ∈ signatures) := by
  obtain ⟨members, rfl, named⟩ := mapping
  by_cases empty : signatures = []
  · subst empty
    have fresh : Table.get? members unknownBucket = none :=
      Table.get?_eq_none_iff.mpr fun member => (named _ member).2 rfl
    simp [bucketHas, Value.member?, fresh]
  · simp only [withBucket_object empty, bucketHas, Value.member?, Table.get?, if_true,
      Table.contains, get?_bucketEntries]
    split <;> simp_all

/-- Recording a signature adds it to the bucket and leaves the content. -/
theorem recordUnknown_withBucket (locale : LocaleMerge) (mapping : Mapping locale.output)
    (signatures : List String) (signature : String) :
    recordUnknown { locale with output := withBucket signatures locale.output } signature =
      { locale with output := withBucket (signatures ++ [signature]) locale.output } := by
  have has := bucketHas_withBucket mapping signatures signature
  obtain ⟨name, input, output, report⟩ := locale
  obtain ⟨members, rfl, named⟩ := mapping
  by_cases empty : signatures = []
  · subst empty
    have fresh : unknownBucket ∉ Table.names members := fun member =>
      (named _ member).2 rfl
    have kept : Table.erase members unknownBucket = members :=
      Table.erase_of_not_mem fresh
    simp only [withBucket_nil] at has
    simp only [recordUnknown, withBucket_nil, has, List.not_mem_nil, decide_false,
      Bool.false_eq_true, if_false, insertUnknown,
      Table.get?_eq_none_iff.mpr fresh, kept, List.nil_append]
    rfl
  · simp only [withBucket_object empty] at has
    simp only [recordUnknown, withBucket_object empty, has, decide_eq_true_eq,
      withBucket_object (show signatures ++ [signature] ≠ [] by simp)]
    by_cases known : signature ∈ signatures
    · rw [if_pos known, bucketEntries_of_mem known]
    · rw [if_neg known, bucketEntries_append]
      simp [insertUnknown, Table.get?, Table.put]

end Phrasebook.Catalog
