import Phrasebook.Json.Typed
import Phrasebook.Proofs.Json.Reading
import Phrasebook.Proofs.Table

/-!
# Printed values are read by their types

The two layouts differ in the blanks around items and members only.  Strings, booleans, lists of
strings and tables of them are read from both of them as what was printed.
-/

namespace Phrasebook.Json

open Lexeme

variable {first : Bool} {name : String} {value : Value} {gap space text rest : List Char}
variable {items : List Value} {members : List (String × Value)} {strings : List String}

/-- Whether a text is nothing but blanks. -/
def Blanks (gap : List Char) : Prop :=
  ∀ c ∈ gap, isBlank c = true

theorem blanks_nil : Blanks [] :=
  nofun

theorem blanks_space : Blanks [' '] := by
  simp [Blanks, isBlank]

theorem blanks_newline (depth : Nat) : Blanks (newline depth) := by
  intro c member
  rcases List.mem_cons.mp member with rfl | member
  · rfl
  · rw [List.eq_of_mem_replicate member]
    rfl

theorem Blanks.skip (blanks : Blanks gap) (text : List Char) :
    skipBlanks (gap ++ text) = skipBlanks text :=
  List.dropWhile_append_of_pos blanks

/-- Whether a text is a value in one of the two layouts. -/
inductive Printed : Value → List Char → Prop where
  | compact (value : Value) : Printed value (compactText value)
  | pretty (depth : Nat) (value : Value) : Printed value (prettyText depth value)

/-- Whether a text is the items of an array with the bracket behind them. -/
inductive PrintedItems : Bool → List Value → List Char → Prop where
  | stop (first : Bool) {gap : List Char} : Blanks gap → PrintedItems first [] (gap ++ [']'])
  | item (first : Bool) {gap text rest : List Char} {value : Value} {items : List Value} :
      Blanks gap → Printed value text → PrintedItems false items rest →
        PrintedItems first (value :: items) (separator first ++ (gap ++ (text ++ rest)))

/-- Whether a text is the members of an object with the brace behind them. -/
inductive PrintedMembers : Bool → List (String × Value) → List Char → Prop where
  | stop (first : Bool) {gap : List Char} : Blanks gap → PrintedMembers first [] (gap ++ ['}'])
  | member (first : Bool) {gap space text rest : List Char} (name : String) {value : Value}
      {members : List (String × Value)} :
      Blanks gap → Blanks space → Printed value text → PrintedMembers false members rest →
        PrintedMembers first ((name, value) :: members)
          (separator first ++ (gap ++ (quoted name ++ ':' :: (space ++ (text ++ rest)))))

theorem PrintedItems.exists_fuel {fuel : Nat} (printed : PrintedItems first items text)
    (enough : text.length ≤ fuel) : ∃ left, fuel = left + 1 := by
  have some : 0 < text.length := by
    induction printed with
    | stop => simp
    | item _ _ _ _ ih =>
        simp only [List.length_append] at enough ⊢
        have more := ih (by omega)
        omega
  exact Nat.exists_eq_succ_of_ne_zero (Nat.ne_zero_of_lt (Nat.lt_of_lt_of_le some enough))

theorem PrintedMembers.exists_fuel {fuel : Nat} (printed : PrintedMembers first members text)
    (enough : text.length ≤ fuel) : ∃ left, fuel = left + 1 := by
  have some : 0 < text.length := by
    cases printed with
    | stop => simp
    | member =>
        simp only [List.length_append, List.length_cons]
        omega
  exact Nat.exists_eq_succ_of_ne_zero (Nat.ne_zero_of_lt (Nat.lt_of_lt_of_le some enough))

/-- A member is longer than what stands behind it, so reading it needs one more step. -/
theorem length_lt_member (first : Bool) (gap : List Char) (name : String)
    (space text rest : List Char) :
    rest.length <
      (separator first ++ (gap ++ (quoted name ++ ':' :: (space ++ (text ++ rest))))).length := by
  simp only [List.length_append, List.length_cons]
  omega

theorem printedItems_compact (first : Bool) (items : List Value) :
    PrintedItems first items (compactItems first items) := by
  induction items generalizing first with
  | nil => exact .stop first blanks_nil
  | cons value items ih =>
      have printed := PrintedItems.item first blanks_nil (.compact value) (ih false)
      rwa [List.nil_append, ← List.append_assoc] at printed

theorem printedItems_pretty (depth : Nat) (first : Bool) (items : List Value) :
    PrintedItems first items (prettyItems depth first items) := by
  induction items generalizing first with
  | nil => exact .stop first (blanks_newline depth)
  | cons value items ih =>
      rw [prettyItems_cons]
      exact .item first (blanks_newline _) (.pretty _ value) (ih false)

theorem printedMembers_compact (first : Bool) (members : List (String × Value)) :
    PrintedMembers first members (compactMembers first members) := by
  induction members generalizing first with
  | nil => exact .stop first blanks_nil
  | cons member members ih =>
      obtain ⟨name, value⟩ := member
      have printed := PrintedMembers.member first name blanks_nil blanks_nil (.compact value)
        (ih false)
      rw [compactMembers]
      simpa [separator] using printed

theorem printedMembers_pretty (depth : Nat) (first : Bool) (members : List (String × Value)) :
    PrintedMembers first members (prettyMembers depth first members) := by
  induction members generalizing first with
  | nil => exact .stop first (blanks_newline depth)
  | cons member members ih =>
      obtain ⟨name, value⟩ := member
      rw [prettyMembers_cons]
      exact .member first name (blanks_newline _) blanks_space (.pretty _ value) (ih false)

theorem Printed.exists_items (printed : Printed (.array items) text) :
    ∃ body, text = '[' :: body ∧ PrintedItems true items body := by
  cases printed with
  | compact => exact ⟨_, rfl, printedItems_compact true items⟩
  | pretty depth =>
      cases items with
      | nil => exact ⟨[']'], rfl, .stop true blanks_nil⟩
      | cons item items => exact ⟨_, rfl, printedItems_pretty depth true (item :: items)⟩

theorem Printed.exists_members (printed : Printed (.object members) text) :
    ∃ body, text = '{' :: body ∧ PrintedMembers true members body := by
  cases printed with
  | compact => exact ⟨_, rfl, printedMembers_compact true members⟩
  | pretty depth =>
      cases members with
      | nil => exact ⟨['}'], rfl, .stop true blanks_nil⟩
      | cons member members =>
          exact ⟨_, rfl, printedMembers_pretty depth true (member :: members)⟩

theorem Printed.string {s : String} (printed : Printed (.string s) text) : text = quoted s := by
  cases printed <;> rfl

theorem Printed.bool {flag : Bool} (printed : Printed (.bool flag) text) :
    text = scalarText (.bool flag) := by
  cases printed <;> rfl

namespace Typed

/-- Whether a reader takes a text for a value, whatever blanks stand in front of it and whatever
behind it. -/
def Takes {α : Type} (reader : List Char → Reply α) (text : List Char) (value : α) : Prop :=
  ∀ space rest, Blanks space → reader (space ++ (text ++ rest)) = .ok (value, rest)

theorem takes_string {s : String} (printed : Printed (.string s) text) : Takes string text s := by
  intro space rest blanks
  obtain rfl := printed.string
  rw [string, blanks.skip, quoted, List.append_assoc, List.cons_append, skipBlanks_cons rfl]
  exact string_quoted s rest

theorem takes_optionalString {s : String} (printed : Printed (.string s) text) :
    Takes optionalString text (some s) := by
  intro space rest blanks
  have read := takes_string printed [] rest blanks_nil
  obtain rfl := printed.string
  rw [List.nil_append, quoted, List.append_assoc, List.cons_append] at read
  rw [optionalString, blanks.skip, quoted, List.append_assoc, List.cons_append,
    skipBlanks_cons rfl]
  exact congrArg (Except.map fun found => (some found.1, found.2)) read

theorem takes_bool {flag : Bool} (printed : Printed (.bool flag) text) : Takes bool text flag := by
  intro space rest blanks
  obtain rfl := printed.bool
  cases flag with
  | true => rw [bool, blanks.skip]; rfl
  | false => rw [bool, blanks.skip]; rfl

theorem moreItems_stop (first : Bool) (blanks : Blanks gap) (rest : List Char) :
    moreItems first (gap ++ ']' :: rest) = .ok (false, ']' :: rest) := by
  rw [moreItems, blanks.skip, skipBlanks_cons rfl]
  rfl

theorem moreItems_item (first : Bool) (blanks : Blanks gap) (starts : StartsItem text) :
    moreItems first (separator first ++ (gap ++ text)) = .ok (true, text) := by
  obtain ⟨c, tail, rfl, notBlank, notEnd⟩ := starts
  cases first with
  | true =>
      rw [separator, if_pos rfl, List.nil_append, moreItems, blanks.skip, skipBlanks_cons notBlank]
      split
      case h_1 empty => cases empty
      case h_2 equal => exact absurd (List.cons.inj equal).1 notEnd
      case h_3 equal =>
        rw [← equal]
        rfl
  | false =>
      rw [separator, if_neg Bool.false_ne_true, List.singleton_append, moreItems,
        skipBlanks_cons rfl]
      split
      case h_1 empty => cases empty
      case h_2 equal => exact absurd (List.cons.inj equal).1 (by decide)
      case h_3 equal =>
        obtain ⟨rfl, rfl⟩ := List.cons.inj equal
        rw [if_neg Bool.false_ne_true, if_pos rfl, blanks.skip, skipBlanks_cons notBlank]
        split
        case h_1 empty => cases empty
        case h_2 equal => exact absurd (List.cons.inj equal).1 notEnd
        case h_3 => rfl

theorem startsItem_quoted (s : String) : StartsItem (quoted s) :=
  ⟨'"', _, rfl, rfl, by decide⟩

theorem stringItems_printed {fuel : Nat}
    (printed : PrintedItems first (strings.map Value.string) text) (enough : text.length ≤ fuel)
    (rest : List Char) : stringItems fuel first (text ++ rest) = .ok (strings, rest) := by
  induction strings generalizing first text fuel with
  | nil =>
      obtain ⟨fuel, rfl⟩ := printed.exists_fuel enough
      cases printed with
      | stop _ blanks =>
          rw [stringItems, List.append_assoc, List.singleton_append, moreItems_stop _ blanks]
          rfl
  | cons s strings ih =>
      obtain ⟨fuel, rfl⟩ := printed.exists_fuel enough
      cases printed with
      | @item _ gap text after _ _ blanks one others =>
          obtain rfl := one.string
          have less : after.length ≤ fuel := by
            simp only [List.length_append, quoted, List.length_cons] at enough
            omega
          have read : string (quoted s ++ (after ++ rest)) = .ok (s, after ++ rest) :=
            takes_string one [] _ blanks_nil
          rw [stringItems, List.append_assoc, List.append_assoc, List.append_assoc,
            moreItems_item _ blanks ((startsItem_quoted s).append _)]
          simp only [bind, Except.bind, if_true, read, ih others less]
          rfl

theorem takes_strings (printed : Printed (.array (strings.map Value.string)) text) :
    Takes Typed.strings text strings := by
  intro space rest blanks
  obtain ⟨body, rfl, items⟩ := printed.exists_items
  rw [Typed.strings, blanks.skip, List.cons_append, skipBlanks_cons rfl]
  apply stringItems_printed items
  rw [List.length_append]
  omega

theorem nextName_stop (first : Bool) (blanks : Blanks gap) (rest : List Char) :
    nextName first (gap ++ '}' :: rest) = .ok (none, '}' :: rest) := by
  rw [nextName, blanks.skip, skipBlanks_cons rfl]
  rfl

theorem nextName_member (first : Bool) (blanks : Blanks gap) (name : String) (rest : List Char) :
    nextName first (separator first ++ (gap ++ (quoted name ++ rest))) = .ok (some name, rest) := by
  have read := string_quoted name rest
  have opened : quoted name ++ rest = '"' :: (name.toList.flatMap escaped ++ '"' :: rest) := by
    simp [quoted]
  rw [opened]
  cases first with
  | true =>
      rw [separator, if_pos rfl, List.nil_append, nextName, blanks.skip, skipBlanks_cons rfl]
      exact congrArg (Except.map fun found => (some found.1, found.2)) read
  | false =>
      rw [separator, if_neg Bool.false_ne_true, List.singleton_append, nextName,
        skipBlanks_cons rfl]
      split
      case h_1 empty => cases empty
      case h_2 equal => exact absurd (List.cons.inj equal).1 (by decide)
      case h_3 equal =>
        obtain ⟨rfl, rfl⟩ := List.cons.inj equal
        rw [if_neg Bool.false_ne_true, if_pos rfl, blanks.skip, skipBlanks_cons rfl]
        exact congrArg (Except.map fun found => (some found.1, found.2)) read

theorem colon_cons (rest : List Char) : colon (':' :: rest) = .ok rest :=
  rfl

/-- A table of lists of strings as members. -/
def tableMembers (table : List (String × List String)) : List (String × Value) :=
  table.map fun (name, strings) => (name, .array (strings.map Value.string))

theorem stringsEntries_printed {table : List (String × List String)} {fuel : Nat}
    (printed : PrintedMembers first (tableMembers table) text) (enough : text.length ≤ fuel)
    (rest : List Char) : stringsEntries fuel first (text ++ rest) = .ok (table, rest) := by
  induction table generalizing first text fuel with
  | nil =>
      obtain ⟨fuel, rfl⟩ := printed.exists_fuel enough
      cases printed with
      | stop _ blanks =>
          rw [stringsEntries, List.append_assoc, List.singleton_append, nextName_stop _ blanks]
          rfl
  | cons entry table ih =>
      obtain ⟨name, strings⟩ := entry
      obtain ⟨fuel, rfl⟩ := printed.exists_fuel enough
      cases printed with
      | @member _ gap space text after _ _ _ blanks spaces one others =>
          have less : after.length ≤ fuel :=
            Nat.le_of_lt_succ (Nat.lt_of_lt_of_le (length_lt_member ..) enough)
          have read := takes_strings one space (after ++ rest) spaces
          simp only [List.append_assoc, List.cons_append]
          rw [stringsEntries, nextName_member _ blanks]
          simp only [bind, Except.bind, colon_cons, read, ih others less]
          rfl

theorem takes_stringsTable {table : List (String × List String)}
    (printed : Printed (.object (tableMembers table)) text) (increasing : Table.Increasing table) :
    Takes stringsTable text table := by
  intro space rest blanks
  obtain ⟨body, rfl, members⟩ := printed.exists_members
  have enough : body.length ≤ (body ++ rest).length + 1 := by
    rw [List.length_append]
    omega
  have read : (stringsEntries _ true (body ++ rest)).map (fun found =>
      (Table.sorted found.1, found.2)) = .ok (Table.sorted table, rest) :=
    congrArg _ (stringsEntries_printed members enough rest)
  rw [stringsTable, blanks.skip, List.cons_append, skipBlanks_cons rfl]
  rw [Table.sorted_of_increasing increasing] at read
  exact read

end Typed
end Phrasebook.Json
