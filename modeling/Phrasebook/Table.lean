/-!
# Tables

A table gives values to names.  It is a list of pairs in which no name occurs
twice, kept in one of two orders: `put` appends new names, so that the order is
that of first appearance; `insert` keeps the names in increasing order.
-/

namespace Phrasebook

/-- Pairs of a name and its value. -/
abbrev Table (α : Type) := List (String × α)

namespace Table

variable {α : Type}

/-- The value of a name. -/
def get? (table : List (String × α)) (name : String) : Option α :=
  match table with
  | [] => none
  | (key, value) :: rest => if key = name then some value else get? rest name

/-- Whether a name has a value. -/
def contains (table : List (String × α)) (name : String) : Bool :=
  (get? table name).isSome

/-- Give a name a value: in its place when it is there, else at the end. -/
def put (table : List (String × α)) (name : String) (value : α) :
    List (String × α) :=
  match table with
  | [] => [(name, value)]
  | (key, old) :: rest =>
      if key = name then (key, value) :: rest else (key, old) :: put rest name value

/-- Give a name a value, keeping the names in increasing order. -/
def insert (table : List (String × α)) (name : String) (value : α) :
    List (String × α) :=
  match table with
  | [] => [(name, value)]
  | (key, old) :: rest =>
      if key = name then (key, value) :: rest
      else if name < key then (name, value) :: (key, old) :: rest
      else (key, old) :: insert rest name value

/-- Whether the names stand in increasing order, which makes them distinct. -/
def Increasing (table : List (String × α)) : Prop :=
  table.Pairwise fun left right => left.1 < right.1

/-- The table without a name. -/
def erase (table : List (String × α)) (name : String) : List (String × α) :=
  table.filter fun entry => entry.1 ≠ name

/-- The names, in the order of the table. -/
def names (table : List (String × α)) : List String :=
  table.map Prod.fst

/-- Pairs taken in one after the other, in order of first appearance; the last
value of a name counts. -/
def ofEntries (entries : List (String × α)) : List (String × α) :=
  entries.foldl (fun table entry => put table entry.1 entry.2) []

/-- Pairs taken in one after the other, in increasing order; the last value of a
name counts. -/
def sorted (entries : List (String × α)) : List (String × α) :=
  entries.foldl (fun table entry => insert table entry.1 entry.2) []

theorem increasing_nil : Increasing ([] : List (String × α)) :=
  .nil

/-- Inserting adds at most the given entry. -/
theorem mem_insert {table : List (String × α)} {name : String} {value : α}
    {entry : String × α} (member : entry ∈ insert table name value) :
    entry = (name, value) ∨ entry ∈ table := by
  induction table with
  | nil => exact .inl (by simpa [insert] using member)
  | cons head rest ih =>
      obtain ⟨key, old⟩ := head
      unfold insert at member
      split at member
      · rename_i equal
        subst equal
        rcases List.mem_cons.mp member with rfl | member
        · exact .inl rfl
        · exact .inr (List.mem_cons_of_mem _ member)
      · split at member
        · exact List.mem_cons.mp member
        · rcases List.mem_cons.mp member with rfl | member
          · exact .inr (List.mem_cons_self ..)
          · exact (ih member).imp_right (List.mem_cons_of_mem _)

theorem Increasing.insert {table : List (String × α)} (increasing : Increasing table)
    (name : String) (value : α) : Increasing (insert table name value) := by
  induction table with
  | nil => exact List.pairwise_singleton ..
  | cons head rest ih =>
      obtain ⟨key, old⟩ := head
      obtain ⟨above, increasing⟩ := List.pairwise_cons.mp increasing
      unfold Table.insert
      split
      · exact List.pairwise_cons.mpr ⟨above, increasing⟩
      · rename_i different
        split
        · rename_i less
          refine List.pairwise_cons.mpr ⟨?_, List.pairwise_cons.mpr ⟨above, increasing⟩⟩
          intro entry member
          rcases List.mem_cons.mp member with rfl | member
          · exact less
          · exact String.lt_trans less (above entry member)
        · rename_i notLess
          refine List.pairwise_cons.mpr ⟨?_, ih increasing⟩
          intro entry member
          rcases mem_insert member with rfl | member
          · exact (String.not_le.mp fun le =>
              different (String.le_antisymm (String.not_lt.mp notLess) le))
          · exact above entry member

/-- Taking pairs in by `insert` keeps the names increasing. -/
theorem Increasing.foldl_insert {table : List (String × α)}
    (increasing : Increasing table) (entries : List (String × α)) :
    Increasing (entries.foldl (fun table entry => Table.insert table entry.1 entry.2)
      table) := by
  induction entries generalizing table with
  | nil => exact increasing
  | cons entry rest ih => exact ih (increasing.insert entry.1 entry.2)

theorem increasing_sorted (entries : List (String × α)) : Increasing (sorted entries) :=
  increasing_nil.foldl_insert entries

end Table
end Phrasebook
