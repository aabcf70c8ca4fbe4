import Phrasebook.Proofs.Json.Reading
import Phrasebook.Proofs.Table

/-!
# Values that are read back unchanged

A value without doubles is what its text is read as, member by member in the same order, if the
names in each of its objects are distinct.  They are distinct in every value that was read.
-/

namespace Phrasebook.Json

mutual

/-- Whether all numbers of a value are integers. -/
def Value.isIntegral : Value → Bool
  | .number (.double _) => false
  | .array items => integralItems items
  | .object members => integralMembers members
  | _ => true

@[inherit_doc Value.isIntegral]
def integralItems : List Value → Bool
  | [] => true
  | item :: rest => item.isIntegral && integralItems rest

@[inherit_doc Value.isIntegral]
def integralMembers : List (String × Value) → Bool
  | [] => true
  | (_, value) :: rest => value.isIntegral && integralMembers rest

end

mutual

/-- Whether the members of each object of a value have distinct names. -/
def Value.isDistinct : Value → Bool
  | .array items => distinctItems items
  | .object members => decide (Table.names members).Nodup && distinctMembers members
  | _ => true

@[inherit_doc Value.isDistinct]
def distinctItems : List Value → Bool
  | [] => true
  | item :: rest => item.isDistinct && distinctItems rest

@[inherit_doc Value.isDistinct]
def distinctMembers : List (String × Value) → Bool
  | [] => true
  | (_, value) :: rest => value.isDistinct && distinctMembers rest

end

theorem names_rereadMembers (members : List (String × Value)) :
    Table.names (rereadMembers members) = Table.names members := by
  induction members with
  | nil => rfl
  | cons member rest ih =>
      obtain ⟨name, value⟩ := member
      rw [rereadMembers, Table.names_cons, Table.names_cons, ih]

mutual

/-- Reading the text of a value without doubles changes nothing just if there is nothing to be
thrown out of its objects. -/
theorem reread_eq_self_iff (value : Value) (integral : value.isIntegral = true) :
    value.reread = value ↔ value.isDistinct = true := by
  match value with
  | .null => exact iff_of_true rfl rfl
  | .bool _ => exact iff_of_true rfl rfl
  | .string _ => exact iff_of_true rfl rfl
  | .number (.integer _ _ _) => exact iff_of_true rfl rfl
  | .number (.double _) => cases integral
  | .array items =>
      rw [Value.reread, Value.isDistinct, Value.array.injEq]
      exact rereadItems_eq_self_iff items integral
  | .object members =>
      have inner := rereadMembers_eq_self_iff members integral
      rw [Value.reread, Value.isDistinct, Value.object.injEq, Bool.and_eq_true, decide_eq_true_iff,
        ← inner]
      constructor
      · intro same
        have nodup : (Table.names members).Nodup := by
          rw [← same]
          exact Table.nodup_names_ofEntries _
        refine ⟨nodup, ?_⟩
        rwa [Table.ofEntries_eq_self_iff.mpr (by rwa [names_rereadMembers])] at same
      · rintro ⟨nodup, same⟩
        rw [same]
        exact Table.ofEntries_eq_self_iff.mpr nodup

theorem rereadItems_eq_self_iff (items : List Value) (integral : integralItems items = true) :
    rereadItems items = items ↔ distinctItems items = true := by
  match items with
  | [] => exact iff_of_true rfl rfl
  | item :: rest =>
      obtain ⟨first, others⟩ := Bool.and_eq_true_iff.mp integral
      rw [rereadItems, distinctItems, List.cons.injEq, Bool.and_eq_true,
        reread_eq_self_iff item first, rereadItems_eq_self_iff rest others]

theorem rereadMembers_eq_self_iff (members : List (String × Value))
    (integral : integralMembers members = true) :
    rereadMembers members = members ↔ distinctMembers members = true := by
  match members with
  | [] => exact iff_of_true rfl rfl
  | (name, value) :: rest =>
      obtain ⟨first, others⟩ := Bool.and_eq_true_iff.mp integral
      rw [rereadMembers, distinctMembers, List.cons.injEq, Prod.mk.injEq, Bool.and_eq_true,
        reread_eq_self_iff value first, rereadMembers_eq_self_iff rest others]
      simp

end

theorem distinctMembers_iff {members : List (String × Value)} :
    distinctMembers members = true ↔ ∀ member ∈ members, member.2.isDistinct = true := by
  induction members with
  | nil => simp [distinctMembers]
  | cons member rest ih =>
      obtain ⟨name, value⟩ := member
      rw [distinctMembers, Bool.and_eq_true, ih, List.forall_mem_cons]

/-- Members that are taken in one after the other have distinct names. -/
theorem isDistinct_object_ofEntries {entries : List (String × Value)}
    (each : distinctMembers entries = true) :
    (Value.object (Table.ofEntries entries)).isDistinct = true := by
  rw [Value.isDistinct, Bool.and_eq_true, decide_eq_true_iff]
  refine ⟨Table.nodup_names_ofEntries entries, distinctMembers_iff.mpr fun member present => ?_⟩
  exact distinctMembers_iff.mp each member (Table.mem_ofEntries present)

/-- What is read with some fuel has distinct names in each object. -/
structure ReadsDistinct (fuel : Nat) : Prop where
  value {depth : Nat} {text rest : List Char} {value : Value}
    (read : readValue fuel depth text = .ok (value, rest)) : value.isDistinct = true
  items {depth : Nat} {first : Bool} {text rest : List Char} {items : List Value}
    (read : readItems fuel depth first text = .ok (items, rest)) : distinctItems items = true
  entries {depth : Nat} {first : Bool} {text rest : List Char} {entries : List (String × Value)}
    (read : readEntries fuel depth first text = .ok (entries, rest)) :
    distinctMembers entries = true

namespace ReadsDistinct

variable {fuel depth : Nat} {first : Bool} {text rest : List Char}

theorem succ_value (distinct : ReadsDistinct fuel) {value : Value}
    (read : readValue (fuel + 1) depth text = .ok (value, rest)) : value.isDistinct = true := by
  rw [readValue] at read
  split at read
  case h_1 => cases read
  case h_6 =>
    split at read
    · cases read
    · obtain ⟨⟨items, left⟩, inner, equal⟩ := map_eq_ok read
      cases equal
      exact distinct.items inner
  case h_7 =>
    split at read
    · cases read
    · obtain ⟨⟨entries, left⟩, inner, equal⟩ := map_eq_ok read
      cases equal
      exact isDistinct_object_ofEntries (distinct.entries inner)
  case h_9 =>
    split at read
    · obtain ⟨_, _, equal⟩ := map_eq_ok read
      cases equal
      rfl
    · cases read
  all_goals
    obtain ⟨_, _, equal⟩ := map_eq_ok read
    cases equal
    rfl

theorem succ_items (distinct : ReadsDistinct fuel) {items : List Value}
    (read : readItems (fuel + 1) depth first text = .ok (items, rest)) :
    distinctItems items = true := by
  unfold readItems at read
  extract_lets item at read
  have taken {text : List Char} (read : item text = .ok (items, rest)) :
      distinctItems items = true := by
    obtain ⟨⟨value, left⟩, inner, read⟩ := bind_eq_ok read
    obtain ⟨⟨others, last⟩, more, read⟩ := bind_eq_ok read
    cases read
    rw [distinctItems, distinct.value inner, distinct.items more]
    rfl
  split at read
  case h_1 => cases read
  case h_2 =>
    cases read
    rfl
  case h_3 =>
    split at read
    · exact taken read
    · split at read
      · split at read
        · cases read
        · cases read
        · exact taken read
      · cases read

theorem succ_entries (distinct : ReadsDistinct fuel) {entries : List (String × Value)}
    (read : readEntries (fuel + 1) depth first text = .ok (entries, rest)) :
    distinctMembers entries = true := by
  unfold readEntries at read
  extract_lets entry at read
  have taken {text : List Char} (read : entry text = .ok (entries, rest)) :
      distinctMembers entries = true := by
    obtain ⟨⟨name, left⟩, _, read⟩ := bind_eq_ok read
    dsimp only at read
    split at read
    · cases read
    · obtain ⟨⟨value, left⟩, inner, read⟩ := bind_eq_ok read
      obtain ⟨⟨others, last⟩, more, read⟩ := bind_eq_ok read
      cases read
      rw [distinctMembers, distinct.value inner, distinct.entries more]
      rfl
    · cases read
  split at read
  case h_1 => cases read
  case h_2 =>
    cases read
    rfl
  case h_3 =>
    split at read
    · split at read
      · exact taken read
      · cases read
    · split at read
      · split at read
        · cases read
        · exact taken read
        · cases read
        · cases read
      · cases read

end ReadsDistinct

theorem readsDistinct (fuel : Nat) : ReadsDistinct fuel := by
  induction fuel with
  | zero =>
      refine ⟨fun read => ?_, fun read => ?_, fun read => ?_⟩
      · rw [readValue] at read
        cases read
      · rw [readItems] at read
        cases read
      · rw [readEntries] at read
        cases read
  | succ fuel ih => exact ⟨ih.succ_value, ih.succ_items, ih.succ_entries⟩

/-- A value that is parsed has distinct names in each object. -/
theorem isDistinct_of_parse {text : String} {value : Value}
    (parsed : Value.parse text = .ok value) : value.isDistinct = true := by
  have read : Value.read text.toList = .ok value := by
    unfold Value.parse at parsed
    cases found : Value.read text.toList with
    | error fault =>
        rw [found] at parsed
        cases parsed
    | ok other =>
        rw [found] at parsed
        exact congrArg Except.ok (Except.ok.inj parsed)
  obtain ⟨⟨found, rest⟩, first, read⟩ := bind_eq_ok read
  obtain ⟨_, _, read⟩ := bind_eq_ok read
  cases read
  exact (readsDistinct _).value first

end Phrasebook.Json
