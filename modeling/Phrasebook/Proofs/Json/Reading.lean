import Phrasebook.Json.Reader
import Phrasebook.Proofs.Json.Numbers
import Phrasebook.Proofs.Json.Strings

/-!
# Printed values are read

The indented text of a value is read as a value of the same shape, if its containers do not nest
too deep.  Only doubles may change.
-/

namespace Phrasebook.Json

open Lexeme

mutual

/-- How many containers are open at most around a place in the value. -/
def Value.nesting : Value → Nat
  | .array items => nestingItems items + 1
  | .object members => nestingMembers members + 1
  | _ => 0

@[inherit_doc Value.nesting]
def nestingItems : List Value → Nat
  | [] => 0
  | item :: rest => max item.nesting (nestingItems rest)

@[inherit_doc Value.nesting]
def nestingMembers : List (String × Value) → Nat
  | [] => 0
  | (_, value) :: rest => max value.nesting (nestingMembers rest)

end

mutual

/-- What the text of a value is read as. -/
def Value.reread : Value → Value
  | .number n => .number n.reread
  | .array items => .array (rereadItems items)
  | .object members => .object (Table.ofEntries (rereadMembers members))
  | value => value

@[inherit_doc Value.reread]
def rereadItems : List Value → List Value
  | [] => []
  | item :: rest => item.reread :: rereadItems rest

@[inherit_doc Value.reread]
def rereadMembers : List (String × Value) → List (String × Value)
  | [] => []
  | (name, value) :: rest => (name, value.reread) :: rereadMembers rest

end

variable {c : Char} {fuel depth : Nat} {text rest : List Char}

theorem map_eq_ok {α β ε : Type} {image : α → β} {answer : Except ε α} {result : β}
    (done : answer.map image = .ok result) :
    ∃ found, answer = .ok found ∧ image found = result := by
  cases answer with
  | error error => cases done
  | ok found => exact ⟨found, rfl, Except.ok.inj done⟩

theorem bind_eq_ok {α β ε : Type} {next : α → Except ε β} {answer : Except ε α} {result : β}
    (done : answer >>= next = .ok result) :
    ∃ found, answer = .ok found ∧ next found = .ok result := by
  cases answer with
  | error error => cases done
  | ok found => exact ⟨found, rfl, done⟩

theorem isBlank_of_isDigit (digit : c.isDigit = true) : isBlank c = false := by
  cases blank : isBlank c with
  | false => rfl
  | true =>
      simp only [isBlank, Bool.or_eq_true, beq_iff_eq] at blank
      rcases blank with ((rfl | rfl) | rfl) | rfl <;> cases digit

theorem skipBlanks_cons (notBlank : isBlank c = false) : skipBlanks (c :: text) = c :: text := by
  simp [skipBlanks, notBlank]

theorem skipBlanks_newline (depth : Nat) (text : List Char) :
    skipBlanks (newline depth ++ text) = skipBlanks text := by
  have blanks : ∀ c ∈ newline depth, isBlank c = true := by
    intro c member
    rcases List.mem_cons.mp member with rfl | member
    · rfl
    · rw [List.eq_of_mem_replicate member]
      rfl
  exact List.dropWhile_append_of_pos blanks

theorem readValue_skipBlanks (fuel depth : Nat) {text other : List Char}
    (same : skipBlanks text = skipBlanks other) :
    readValue (fuel + 1) depth text = readValue (fuel + 1) depth other := by
  rw [readValue, readValue, same]

theorem readValue_digit (digit : c.isDigit = true) :
    readValue (fuel + 1) depth (c :: text) =
      (number false (c :: text)).map fun (n, rest) => (.number n, rest) := by
  rw [readValue, skipBlanks_cons (isBlank_of_isDigit digit)]
  split
  case h_1 empty => cases empty
  case h_9 equal =>
    obtain ⟨rfl, rfl⟩ := List.cons.inj equal
    rw [if_pos digit]
  all_goals
    rename_i equal
    obtain ⟨rfl, rfl⟩ := List.cons.inj equal
    cases digit

theorem readValue_number (n : Number) (ends : Ends rest) :
    readValue (fuel + 1) depth (n.text.toList ++ rest) = .ok (.number n.reread, rest) := by
  have read := n.number_body ends
  rw [n.text_toList]
  split
  · rename_i signed
    rw [signed] at read
    rw [List.cons_append, readValue, skipBlanks_cons rfl]
    simp only [read, Except.map]
  · rename_i unsigned
    rw [Bool.not_eq_true] at unsigned
    rw [unsigned] at read
    obtain ⟨c, more, body, digit⟩ := n.exists_body
    rw [body, List.cons_append] at read ⊢
    rw [readValue_digit digit, read]
    rfl

theorem readValue_string (s : String) (rest : List Char) :
    readValue (fuel + 1) depth (quoted s ++ rest) = .ok (.string s, rest) := by
  have read := string_quoted s rest
  rw [quoted, List.append_assoc, List.cons_append, readValue, skipBlanks_cons rfl]
  simp only [List.singleton_append, read, Except.map]

/-- A text that starts with an item of an array. -/
def StartsItem (text : List Char) : Prop :=
  ∃ c more, text = c :: more ∧ isBlank c = false ∧ c ≠ ']'

theorem StartsItem.append (starts : StartsItem text) (rest : List Char) :
    StartsItem (text ++ rest) := by
  obtain ⟨c, more, rfl, notBlank, notEnd⟩ := starts
  exact ⟨c, more ++ rest, rfl, notBlank, notEnd⟩

/-- What stands in front of an item or a member. -/
def separator (first : Bool) : List Char :=
  if first then [] else [',']

theorem readItems_end (fuel depth : Nat) (first : Bool) (indent : Nat) (rest : List Char) :
    readItems (fuel + 1) depth first (newline indent ++ ']' :: rest) = .ok ([], rest) := by
  rw [readItems, skipBlanks_newline, skipBlanks_cons rfl]
  rfl

/-- An item and the ones after it are read one after the other. -/
theorem readItems_item (starts : StartsItem text) (fuel depth : Nat) (first : Bool)
    (indent : Nat) :
    readItems (fuel + 1) depth first (separator first ++ (newline indent ++ text)) =
      (do
        let (value, rest) ← readValue fuel depth text
        let (items, rest) ← readItems fuel depth false rest
        return (value :: items, rest) : Except Fault (List Value × List Char)) := by
  obtain ⟨c, tail, rfl, notBlank, notEnd⟩ := starts
  cases first with
  | true =>
      rw [separator, if_pos rfl, List.nil_append, readItems, skipBlanks_newline,
        skipBlanks_cons notBlank]
      split
      case h_1 empty => cases empty
      case h_2 equal => exact absurd (List.cons.inj equal).1 notEnd
      case h_3 equal =>
        obtain ⟨rfl, rfl⟩ := List.cons.inj equal
        rw [if_pos rfl]
  | false =>
      rw [separator, if_neg Bool.false_ne_true, List.singleton_append, readItems,
        skipBlanks_cons rfl]
      split
      case h_1 empty => cases empty
      case h_2 equal => exact absurd (List.cons.inj equal).1 (by decide)
      case h_3 equal =>
        obtain ⟨rfl, rfl⟩ := List.cons.inj equal
        rw [if_neg Bool.false_ne_true, if_pos rfl, skipBlanks_newline, skipBlanks_cons notBlank]
        split
        case h_1 empty => cases empty
        case h_2 equal => exact absurd (List.cons.inj equal).1 notEnd
        case h_3 => rfl

theorem readEntries_end (fuel depth : Nat) (first : Bool) (indent : Nat) (rest : List Char) :
    readEntries (fuel + 1) depth first (newline indent ++ '}' :: rest) = .ok ([], rest) := by
  rw [readEntries, skipBlanks_newline, skipBlanks_cons rfl]
  rfl

/-- A member is read by its name, its value, and then the ones after it. -/
theorem readEntries_entry (name : String) (text : List Char) (fuel depth : Nat) (first : Bool)
    (indent : Nat) :
    readEntries (fuel + 2) depth first
        (separator first ++ (newline indent ++ (quoted name ++ ':' :: ' ' :: text))) =
      (do
        let (value, rest) ← readValue (fuel + 1) depth text
        let (entries, rest) ← readEntries (fuel + 1) depth false rest
        return ((name, value) :: entries, rest) :
          Except Fault (List (String × Value) × List Char)) := by
  have opened : quoted name ++ ':' :: ' ' :: text =
      '"' :: (name.toList.flatMap escaped ++ '"' :: ':' :: ' ' :: text) := by
    simp [quoted]
  have spaced : readValue (fuel + 1) depth (' ' :: text) = readValue (fuel + 1) depth text :=
    readValue_skipBlanks fuel depth rfl
  rw [opened]
  cases first with
  | true =>
      rw [separator, if_pos rfl, List.nil_append, readEntries, skipBlanks_newline,
        skipBlanks_cons rfl]
      split
      case h_1 empty => cases empty
      case h_2 equal => exact absurd (List.cons.inj equal).1 (by decide)
      case h_3 equal =>
        obtain ⟨rfl, rfl⟩ := List.cons.inj equal
        rw [if_pos rfl, if_pos rfl, ← spaced]
        simp only [string_quoted, bind, Except.bind]
        rw [skipBlanks_cons rfl]
        rfl
  | false =>
      rw [separator, if_neg Bool.false_ne_true, List.singleton_append, readEntries,
        skipBlanks_cons rfl]
      split
      case h_1 empty => cases empty
      case h_2 equal => exact absurd (List.cons.inj equal).1 (by decide)
      case h_3 equal =>
        obtain ⟨rfl, rfl⟩ := List.cons.inj equal
        rw [if_neg Bool.false_ne_true, if_pos rfl, skipBlanks_newline, skipBlanks_cons rfl,
          ← spaced]
        simp only [string_quoted, bind, Except.bind]
        rw [skipBlanks_cons rfl]
        rfl

theorem readValue_array (deep : 1 < depth) (text : List Char) :
    readValue (fuel + 1) depth ('[' :: text) =
      (readItems fuel (depth - 1) true text).map fun (items, rest) => (.array items, rest) := by
  rw [readValue, skipBlanks_cons rfl]
  simp only [if_neg (Nat.not_le.mpr deep)]

theorem readValue_array_of_le (shut : depth ≤ 1) (text : List Char) :
    readValue (fuel + 1) depth ('[' :: text) = .error (.ahead .recursionLimit ('[' :: text)) := by
  rw [readValue, skipBlanks_cons rfl]
  simp only [if_pos shut]

theorem readValue_object_of_le (shut : depth ≤ 1) (text : List Char) :
    readValue (fuel + 1) depth ('{' :: text) = .error (.ahead .recursionLimit ('{' :: text)) := by
  rw [readValue, skipBlanks_cons rfl]
  simp only [if_pos shut]

theorem readValue_object (deep : 1 < depth) (text : List Char) :
    readValue (fuel + 1) depth ('{' :: text) =
      (readEntries fuel (depth - 1) true text).map fun (entries, rest) =>
        (.object (Table.ofEntries entries), rest) := by
  rw [readValue, skipBlanks_cons rfl]
  simp only [if_neg (Nat.not_le.mpr deep)]

/-! ## The printed text -/

theorem startsItem_prettyText (indent : Nat) (value : Value) :
    StartsItem (prettyText indent value) := by
  cases value with
  | null => exact ⟨'n', _, rfl, rfl, by decide⟩
  | bool value =>
      cases value with
      | true => exact ⟨'t', _, rfl, rfl, by decide⟩
      | false => exact ⟨'f', _, rfl, rfl, by decide⟩
  | number n =>
      obtain ⟨c, more, body, digit⟩ := n.exists_body
      have text : prettyText indent (.number n) = n.text.toList := rfl
      rw [text, n.text_toList]
      split
      · exact ⟨'-', _, rfl, rfl, by decide⟩
      · refine ⟨c, more, body, isBlank_of_isDigit digit, ?_⟩
        rintro rfl
        cases digit
  | string s => exact ⟨'"', _, rfl, rfl, by decide⟩
  | array items =>
      cases items with
      | nil => exact ⟨'[', _, rfl, rfl, by decide⟩
      | cons item items => exact ⟨'[', _, rfl, rfl, by decide⟩
  | object members =>
      cases members with
      | nil => exact ⟨'{', _, rfl, rfl, by decide⟩
      | cons member members => exact ⟨'{', _, rfl, rfl, by decide⟩

theorem ends_cons (stops : c.isDigit = false ∧ c ≠ '.' ∧ c ≠ 'e' ∧ c ≠ 'E') :
    Ends (c :: rest) := by
  intro head same
  obtain rfl : c = head := by simpa using same
  exact stops

theorem ends_prettyItems (indent : Nat) (items : List Value) (rest : List Char) :
    Ends (prettyItems indent false items ++ rest) := by
  cases items with
  | nil => exact ends_cons (by decide)
  | cons item items => exact ends_cons (by decide)

theorem ends_prettyMembers (indent : Nat) (members : List (String × Value)) (rest : List Char) :
    Ends (prettyMembers indent false members ++ rest) := by
  cases members with
  | nil => exact ends_cons (by decide)
  | cons member members => exact ends_cons (by decide)

theorem prettyItems_cons (indent : Nat) (first : Bool) (item : Value) (items : List Value) :
    prettyItems indent first (item :: items) =
      separator first ++ (newline (indent + 1) ++
        (prettyText (indent + 1) item ++ prettyItems indent false items)) := by
  rw [prettyItems, separator, List.append_assoc, List.append_assoc]

theorem prettyMembers_cons (indent : Nat) (first : Bool) (name : String) (value : Value)
    (members : List (String × Value)) :
    prettyMembers indent first ((name, value) :: members) =
      separator first ++ (newline (indent + 1) ++ (quoted name ++ ':' :: ' ' ::
        (prettyText (indent + 1) value ++ prettyMembers indent false members))) := by
  rw [prettyMembers, separator]
  simp only [List.append_assoc, List.cons_append]

mutual

/-- The indented text of a value is read, whatever follows. -/
theorem readValue_prettyText (value : Value) (indent : Nat) {fuel depth : Nat} {rest : List Char}
    (ends : Ends rest) (shallow : value.nesting < depth)
    (enough : (prettyText indent value).length ≤ fuel) :
    readValue fuel depth (prettyText indent value ++ rest) = .ok (value.reread, rest) := by
  obtain ⟨fuel, rfl⟩ : ∃ left, fuel = left + 1 := by
    obtain ⟨c, more, starts, _⟩ := startsItem_prettyText indent value
    rw [starts, List.length_cons] at enough
    exact ⟨fuel - 1, by omega⟩
  match value with
  | .null => rfl
  | .bool true => rfl
  | .bool false => rfl
  | .number n => exact readValue_number n ends
  | .string s => exact readValue_string s rest
  | .array [] =>
      have some : 0 < fuel := Nat.lt_of_succ_lt_succ enough
      rw [Value.nesting] at shallow
      obtain ⟨left, rfl⟩ := Nat.exists_eq_succ_of_ne_zero (Nat.ne_of_gt some)
      have text : prettyText indent (.array []) ++ rest = '[' :: ']' :: rest := rfl
      rw [text, readValue_array (Nat.lt_of_le_of_lt (Nat.le_add_left ..) shallow)]
      rfl
  | .array (item :: items) =>
      rw [Value.nesting] at shallow
      have read := readItems_prettyItems (item :: items) indent true rest
        (Nat.lt_sub_of_add_lt shallow) (Nat.le_of_succ_le_succ enough)
      have text : prettyText indent (.array (item :: items)) =
        '[' :: prettyItems indent true (item :: items) := rfl
      rw [text, List.cons_append,
        readValue_array (Nat.lt_of_le_of_lt (Nat.le_add_left ..) shallow), read]
      rfl
  | .object [] =>
      have some : 0 < fuel := Nat.lt_of_succ_lt_succ enough
      rw [Value.nesting] at shallow
      obtain ⟨left, rfl⟩ := Nat.exists_eq_succ_of_ne_zero (Nat.ne_of_gt some)
      have text : prettyText indent (.object []) ++ rest = '{' :: '}' :: rest := rfl
      rw [text, readValue_object (Nat.lt_of_le_of_lt (Nat.le_add_left ..) shallow)]
      rfl
  | .object (member :: members) =>
      rw [Value.nesting] at shallow
      have read := readEntries_prettyMembers (member :: members) indent true rest
        (Nat.lt_sub_of_add_lt shallow) (Nat.le_of_succ_le_succ enough)
      have text : prettyText indent (.object (member :: members)) =
        '{' :: prettyMembers indent true (member :: members) := rfl
      rw [text, List.cons_append,
        readValue_object (Nat.lt_of_le_of_lt (Nat.le_add_left ..) shallow), read]
      rfl

theorem readItems_prettyItems (items : List Value) (indent : Nat) (first : Bool)
    {fuel depth : Nat} (rest : List Char) (shallow : nestingItems items < depth)
    (enough : (prettyItems indent first items).length ≤ fuel) :
    readItems fuel depth first (prettyItems indent first items ++ rest) =
      .ok (rereadItems items, rest) := by
  match items with
  | [] =>
      obtain ⟨fuel, rfl⟩ : ∃ left, fuel = left + 1 := by
        rw [prettyItems, List.length_append, List.length_singleton] at enough
        exact ⟨fuel - 1, by omega⟩
      rw [prettyItems, List.append_assoc]
      exact readItems_end fuel depth first indent rest
  | item :: items =>
      rw [prettyItems_cons] at enough ⊢
      simp only [List.length_append, newline, List.length_cons] at enough
      obtain ⟨fuel, rfl⟩ : ∃ left, fuel = left + 1 := ⟨fuel - 1, by omega⟩
      rw [nestingItems] at shallow
      have read := readValue_prettyText item (indent + 1) (ends_prettyItems indent items rest)
        (show item.nesting < depth by omega) (show _ ≤ fuel by omega)
      have others := readItems_prettyItems items indent false rest
        (show nestingItems items < depth by omega) (show _ ≤ fuel by omega)
      simp only [List.append_assoc]
      rw [readItems_item ((startsItem_prettyText (indent + 1) item).append _), read]
      simp only [bind, Except.bind, others]
      rfl

theorem readEntries_prettyMembers (members : List (String × Value)) (indent : Nat) (first : Bool)
    {fuel depth : Nat} (rest : List Char) (shallow : nestingMembers members < depth)
    (enough : (prettyMembers indent first members).length ≤ fuel) :
    readEntries fuel depth first (prettyMembers indent first members ++ rest) =
      .ok (rereadMembers members, rest) := by
  match members with
  | [] =>
      obtain ⟨fuel, rfl⟩ : ∃ left, fuel = left + 1 := by
        rw [prettyMembers, List.length_append, List.length_singleton] at enough
        exact ⟨fuel - 1, by omega⟩
      rw [prettyMembers, List.append_assoc]
      exact readEntries_end fuel depth first indent rest
  | (name, value) :: members =>
      rw [prettyMembers_cons] at enough ⊢
      simp only [List.length_append, newline, List.length_cons] at enough
      obtain ⟨fuel, rfl⟩ : ∃ left, fuel = left + 2 := ⟨fuel - 2, by omega⟩
      rw [nestingMembers] at shallow
      have read := readValue_prettyText value (indent + 1) (ends_prettyMembers indent members rest)
        (show value.nesting < depth by omega) (show _ ≤ fuel + 1 by omega)
      have others := readEntries_prettyMembers members indent false rest
        (show nestingMembers members < depth by omega) (show _ ≤ fuel + 1 by omega)
      simp only [List.append_assoc, List.cons_append]
      rw [readEntries_entry, read]
      simp only [bind, Except.bind, others]
      rfl

end

/-! ## Values that nest too deep -/

mutual

/-- The indented text of a value in which more containers nest than may be open is refused. -/
theorem exists_error_readValue (value : Value) (indent : Nat) {fuel depth : Nat}
    (rest : List Char) (positive : 0 < depth) (deep : depth ≤ value.nesting)
    (enough : (prettyText indent value).length ≤ fuel) :
    ∃ fault, readValue fuel depth (prettyText indent value ++ rest) = .error fault := by
  obtain ⟨fuel, rfl⟩ : ∃ left, fuel = left + 1 := by
    obtain ⟨c, more, starts, _⟩ := startsItem_prettyText indent value
    rw [starts, List.length_cons] at enough
    exact ⟨fuel - 1, by omega⟩
  match value with
  | .null => exact absurd deep (Nat.not_le.mpr positive)
  | .bool _ => exact absurd deep (Nat.not_le.mpr positive)
  | .number _ => exact absurd deep (Nat.not_le.mpr positive)
  | .string _ => exact absurd deep (Nat.not_le.mpr positive)
  | .array [] =>
      rw [Value.nesting, nestingItems] at deep
      exact ⟨_, readValue_array_of_le deep _⟩
  | .array (item :: items) =>
      rcases Nat.lt_or_ge 1 depth with opens | shut
      · rw [Value.nesting] at deep
        obtain ⟨fault, refused⟩ := exists_error_readItems (item :: items) indent true rest
          (Nat.sub_pos_of_lt opens) (Nat.sub_le_of_le_add deep) (Nat.le_of_succ_le_succ enough)
        have text : prettyText indent (.array (item :: items)) =
          '[' :: prettyItems indent true (item :: items) := rfl
        rw [text, List.cons_append, readValue_array opens, refused]
        exact ⟨fault, rfl⟩
      · exact ⟨_, readValue_array_of_le shut _⟩
  | .object [] =>
      rw [Value.nesting, nestingMembers] at deep
      exact ⟨_, readValue_object_of_le deep _⟩
  | .object (member :: members) =>
      rcases Nat.lt_or_ge 1 depth with opens | shut
      · rw [Value.nesting] at deep
        obtain ⟨fault, refused⟩ := exists_error_readEntries (member :: members) indent true rest
          (Nat.sub_pos_of_lt opens) (Nat.sub_le_of_le_add deep) (Nat.le_of_succ_le_succ enough)
        have text : prettyText indent (.object (member :: members)) =
          '{' :: prettyMembers indent true (member :: members) := rfl
        rw [text, List.cons_append, readValue_object opens, refused]
        exact ⟨fault, rfl⟩
      · exact ⟨_, readValue_object_of_le shut _⟩

theorem exists_error_readItems (items : List Value) (indent : Nat) (first : Bool)
    {fuel depth : Nat} (rest : List Char) (positive : 0 < depth)
    (deep : depth ≤ nestingItems items)
    (enough : (prettyItems indent first items).length ≤ fuel) :
    ∃ fault, readItems fuel depth first (prettyItems indent first items ++ rest) =
      .error fault := by
  match items with
  | [] => exact absurd deep (Nat.not_le.mpr positive)
  | item :: items =>
      rw [prettyItems_cons] at enough ⊢
      simp only [List.length_append, newline, List.length_cons] at enough
      obtain ⟨fuel, rfl⟩ : ∃ left, fuel = left + 1 := ⟨fuel - 1, by omega⟩
      rw [nestingItems] at deep
      have enoughItem : (prettyText (indent + 1) item).length ≤ fuel := by omega
      simp only [List.append_assoc]
      rw [readItems_item ((startsItem_prettyText (indent + 1) item).append _)]
      rcases Nat.lt_or_ge item.nesting depth with shallow | deepItem
      · -- The first item is read, so a later one is the one that is refused.
        obtain ⟨fault, refused⟩ := exists_error_readItems items indent false rest positive
          (show depth ≤ nestingItems items by omega) (show _ ≤ fuel by omega)
        rw [readValue_prettyText item (indent + 1) (ends_prettyItems indent items rest) shallow
          enoughItem]
        simp only [bind, Except.bind, refused]
        exact ⟨fault, rfl⟩
      · obtain ⟨fault, refused⟩ :=
          exists_error_readValue item (indent + 1) _ positive deepItem enoughItem
        rw [refused]
        exact ⟨fault, rfl⟩

theorem exists_error_readEntries (members : List (String × Value)) (indent : Nat) (first : Bool)
    {fuel depth : Nat} (rest : List Char) (positive : 0 < depth)
    (deep : depth ≤ nestingMembers members)
    (enough : (prettyMembers indent first members).length ≤ fuel) :
    ∃ fault, readEntries fuel depth first (prettyMembers indent first members ++ rest) =
      .error fault := by
  match members with
  | [] => exact absurd deep (Nat.not_le.mpr positive)
  | (name, value) :: members =>
      rw [prettyMembers_cons] at enough ⊢
      simp only [List.length_append, newline, List.length_cons] at enough
      obtain ⟨fuel, rfl⟩ : ∃ left, fuel = left + 2 := ⟨fuel - 2, by omega⟩
      rw [nestingMembers] at deep
      have enoughValue : (prettyText (indent + 1) value).length ≤ fuel + 1 := by omega
      simp only [List.append_assoc, List.cons_append]
      rw [readEntries_entry]
      rcases Nat.lt_or_ge value.nesting depth with shallow | deepValue
      · obtain ⟨fault, refused⟩ := exists_error_readEntries members indent false rest positive
          (show depth ≤ nestingMembers members by omega) (show _ ≤ fuel + 1 by omega)
        rw [readValue_prettyText value (indent + 1) (ends_prettyMembers indent members rest) shallow
          enoughValue]
        simp only [bind, Except.bind, refused]
        exact ⟨fault, rfl⟩
      · obtain ⟨fault, refused⟩ :=
          exists_error_readValue value (indent + 1) _ positive deepValue enoughValue
        rw [refused]
        exact ⟨fault, rfl⟩

end

theorem toList_pretty (value : Value) :
    (value.pretty ++ "\n").toList = prettyText 0 value ++ ['\n'] := by
  rw [String.toList_append, Value.pretty, String.toList_ofList]
  rfl

/-- The fuel a whole text is read with is enough for the value it starts with. -/
theorem length_le_fuel (text rest : List Char) :
    text.length ≤ 2 * (text ++ rest).length + 2 := by
  rw [List.length_append]
  omega

/-- The indented text of a value with a line break behind it is parsed, if no more containers nest
than the reader opens. -/
theorem parse_pretty (value : Value) (shallow : value.nesting < depthLimit) :
    Value.parse (value.pretty ++ "\n") = .ok value.reread := by
  have ends : Ends ['\n'] := ends_cons (by decide)
  have read := readValue_prettyText value 0 ends shallow (length_le_fuel _ ['\n'])
  rw [Value.parse, toList_pretty, Value.read, read]
  rfl

/-- It is parsed only then. -/
theorem parse_pretty_iff (value : Value) :
    (∃ result, Value.parse (value.pretty ++ "\n") = .ok result) ↔
      value.nesting < depthLimit := by
  constructor
  · rintro ⟨result, parsed⟩
    by_contra deep
    obtain ⟨fault, refused⟩ := exists_error_readValue value 0 ['\n'] (by decide)
      (Nat.not_lt.mp deep) (length_le_fuel _ ['\n'])
    rw [Value.parse, toList_pretty, Value.read, refused] at parsed
    cases parsed
  · intro shallow
    exact ⟨value.reread, parse_pretty value shallow⟩

end Phrasebook.Json
