import Phrasebook.Extraction
import Phrasebook.Proofs.Config.Nearest
import Phrasebook.Proofs.Json.TypedReading

/-!
# Printed settings are read back

Settings are printed field by field, and read into the default ones field by field.  A field that is
left out keeps its default, which is what it was left out for.
-/

namespace Phrasebook.Config

open Json Lexeme Typed

variable {config whole : Config} {field : Field} {text : List Char}

theorem Field.ofName?_name (field : Field) : Field.ofName? field.name = some field := by
  cases field <;> decide

/-- The value that is printed for a field, if one is. -/
def fieldValue? (config : Config) : Field → Option Value
  | .localesPath => some (.string config.localesPath)
  | .localesOutPath => config.localesOutPath.map Value.string
  | .fnNames => some (stringsValue config.fnNames)
  | .baseLang => some (.string config.baseLang)
  | .unknownKeys => some (.object (tableMembers config.unknownKeys))
  | .silent => some (.bool config.silent)
  | .includes => some (stringsValue config.includes)
  | .ignores => some (stringsValue config.ignores)
  | .ignoreTestFiles => some (.bool config.ignoreTestFiles)

/-- The settings with a field of others. -/
def withField (config whole : Config) : Field → Config
  | .localesPath => { config with localesPath := whole.localesPath }
  | .localesOutPath => { config with localesOutPath := whole.localesOutPath }
  | .fnNames => { config with fnNames := whole.fnNames }
  | .baseLang => { config with baseLang := whole.baseLang }
  | .unknownKeys => { config with unknownKeys := whole.unknownKeys }
  | .silent => { config with silent := whole.silent }
  | .includes => { config with includes := whole.includes }
  | .ignores => { config with ignores := whole.ignores }
  | .ignoreTestFiles => { config with ignoreTestFiles := whole.ignoreTestFiles }

/-- The members for some fields. -/
def fieldMembers (config : Config) (fields : List Field) : List (String × Value) :=
  fields.filterMap fun field => (config.fieldValue? field).map fun value => (field.name, value)

theorem toValue_eq (config : Config) :
    config.toValue = .object (config.fieldMembers Field.all) := by
  unfold toValue
  cases out : config.localesOutPath with
  | none => simp [fieldMembers, Field.all, fieldValue?, Field.name, tableMembers, stringsValue, out]
  | some path =>
      simp [fieldMembers, Field.all, fieldValue?, Field.name, tableMembers, stringsValue, out]

/-- The value of a field is read into the field, whatever the others are. -/
theorem takes_readField {value : Value} (printed : Printed value text)
    (shown : whole.fieldValue? field = some value)
    (increasing : Table.Increasing whole.unknownKeys) (config : Config) :
    Takes (readField config field) text (config.withField whole field) := by
  intro space rest blanks
  cases field with
  | localesOutPath =>
      obtain ⟨path, out, rfl⟩ := Option.map_eq_some_iff.mp shown
      rw [readField, takes_optionalString printed space rest blanks, withField, out]
      rfl
  | unknownKeys =>
      cases shown
      rw [readField, takes_stringsTable printed increasing space rest blanks]
      rfl
  | localesPath | baseLang =>
      cases shown
      rw [readField, takes_string printed space rest blanks]
      rfl
  | fnNames | includes | ignores =>
      cases shown
      rw [readField, takes_strings printed space rest blanks]
      rfl
  | silent | ignoreTestFiles =>
      cases shown
      rw [readField, takes_bool printed space rest blanks]
      rfl

/-- The settings with the printed fields of others. -/
def withFields (config whole : Config) (fields : List Field) : Config :=
  fields.foldl (fun config field =>
    if (whole.fieldValue? field).isSome then config.withField whole field else config) config

theorem withFields_all (whole : Config) : withFields {} whole Field.all = whole := by
  unfold withFields
  cases out : whole.localesOutPath with
  | none =>
      cases whole
      cases out
      rfl
  | some path =>
      cases whole
      cases out
      rfl

/-- Members of different fields are read into the settings one after the other. -/
theorem readMembers_printed {fields seen : List Field} {first : Bool} {fuel : Nat}
    (printed : PrintedMembers first (whole.fieldMembers fields) text)
    (nodup : fields.Nodup) (fresh : ∀ field ∈ fields, field ∉ seen)
    (increasing : Table.Increasing whole.unknownKeys) (enough : text.length ≤ fuel)
    (config : Config) (rest : List Char) :
    readMembers fuel config seen first (text ++ rest) =
      .ok (config.withFields whole fields, rest) := by
  induction fields generalizing first text fuel config seen with
  | nil =>
      obtain ⟨fuel, rfl⟩ := printed.exists_fuel enough
      cases printed with
      | stop _ blanks =>
          rw [readMembers, List.append_assoc, List.singleton_append, nextName_stop _ blanks]
          rfl
  | cons field fields ih =>
      obtain ⟨notAgain, nodup⟩ := List.nodup_cons.mp nodup
      obtain ⟨notSeen, fresh⟩ := List.forall_mem_cons.mp fresh
      rw [withFields, List.foldl_cons]
      cases shown : whole.fieldValue? field with
      | none =>
          rw [fieldMembers, List.filterMap_cons_none (by rw [shown]; rfl)] at printed
          exact ih printed nodup fresh enough config
      | some value =>
          rw [fieldMembers, List.filterMap_cons_some (by rw [shown]; rfl)] at printed
          obtain ⟨fuel, rfl⟩ := printed.exists_fuel enough
          cases printed with
          | @member _ gap space text after _ _ _ blanks spaces one others =>
              have less : after.length ≤ fuel :=
                Nat.le_of_lt_succ (Nat.lt_of_lt_of_le (length_lt_member ..) enough)
              have apart : ∀ other ∈ fields, other ∉ field :: seen := by
                intro other member
                rw [List.mem_cons, not_or]
                exact ⟨fun same => notAgain (same ▸ member), fresh other member⟩
              have others' := ih others nodup apart less (config.withField whole field)
              have read := takes_readField one shown increasing config space (after ++ rest) spaces
              have unseen : seen.contains field = false := by simpa using notSeen
              simp only [List.append_assoc, List.cons_append]
              rw [readMembers, nextName_member _ blanks]
              simp only [bind, Except.bind, Field.ofName?_name, unseen, Bool.false_eq_true,
                if_false, colon_cons, read, others', Option.isSome_some, if_true]
              rfl

/-- Printed settings are read back, in either layout. -/
theorem read_printed (printed : Printed whole.toValue text)
    (increasing : Table.Increasing whole.unknownKeys) : read text = .ok whole := by
  rw [toValue_eq] at printed
  obtain ⟨body, rfl, members⟩ := printed.exists_members
  have nodup : Field.all.Nodup := by decide
  have unseen : ∀ field ∈ Field.all, field ∉ [] := fun _ _ => List.not_mem_nil
  have done := readMembers_printed members nodup unseen increasing (Nat.le_succ _) {} []
  rw [List.append_nil, withFields_all] at done
  have opened : readBody ('{' :: body) = .ok (whole, []) := by
    rw [readBody, skipBlanks_cons rfl]
    exact done
  rw [read, opened]
  rfl

theorem parse_printed (printed : Printed whole.toValue text)
    (increasing : Table.Increasing whole.unknownKeys) :
    parse (String.ofList text) = .ok whole := by
  rw [parse, String.toList_ofList, read_printed printed increasing]
  rfl

/-! ## What is read has its keys in order -/

theorem increasing_of_readField {after : Config} {rest : List Char}
    (increasing : Table.Increasing config.unknownKeys)
    (done : readField config field text = .ok (after, rest)) :
    Table.Increasing after.unknownKeys := by
  cases field with
  | unknownKeys =>
      obtain ⟨⟨table, left⟩, found, equal⟩ := map_eq_ok done
      cases equal
      unfold stringsTable at found
      split at found
      · obtain ⟨⟨entries, left⟩, _, equal⟩ := map_eq_ok found
        cases equal
        exact Table.increasing_sorted entries
      · cases found
  | _ =>
      obtain ⟨found, _, equal⟩ := map_eq_ok done
      cases equal
      exact increasing

theorem increasing_of_readMembers {after : Config} {rest : List Char} {seen : List Field}
    {first : Bool} {fuel : Nat} (increasing : Table.Increasing config.unknownKeys)
    (done : readMembers fuel config seen first text = .ok (after, rest)) :
    Table.Increasing after.unknownKeys := by
  induction fuel generalizing config seen first text with
  | zero => cases done
  | succ fuel ih =>
      rw [readMembers] at done
      obtain ⟨⟨name, left⟩, _, done⟩ := bind_eq_ok done
      cases name with
      | none =>
          cases done
          exact increasing
      | some name =>
          dsimp only at done
          cases known : Field.ofName? name with
          | none =>
              rw [known] at done
              obtain ⟨left, _, done⟩ := bind_eq_ok done
              obtain ⟨left, _, done⟩ := bind_eq_ok done
              exact ih increasing done
          | some field =>
              rw [known] at done
              dsimp only at done
              split at done
              · cases done
              · obtain ⟨left, _, done⟩ := bind_eq_ok done
                obtain ⟨⟨next, left⟩, taken, done⟩ := bind_eq_ok done
                exact ih (increasing_of_readField increasing taken) done

theorem increasing_of_readFields {after : Config} {rest : List Char} {fields : List Field}
    {first : Bool} (increasing : Table.Increasing config.unknownKeys)
    (done : readFields config first fields text = .ok (after, rest)) :
    Table.Increasing after.unknownKeys := by
  induction fields generalizing config first text with
  | nil =>
      cases done
      exact increasing
  | cons field fields ih =>
      rw [readFields] at done
      obtain ⟨⟨more, left⟩, _, done⟩ := bind_eq_ok done
      cases more with
      | false =>
          cases done
          exact increasing
      | true =>
          obtain ⟨⟨next, left⟩, taken, done⟩ := bind_eq_ok done
          exact ih (increasing_of_readField increasing taken) done

theorem increasing_of_parse {text : String} (done : parse text = .ok config) :
    Table.Increasing config.unknownKeys := by
  have parsed : read text.toList = .ok config := by
    unfold parse at done
    cases found : read text.toList with
    | error fault =>
        rw [found] at done
        cases done
    | ok read =>
        rw [found] at done
        cases done
        rfl
  obtain ⟨⟨found, left⟩, body, rest⟩ := bind_eq_ok parsed
  obtain ⟨_, _, rest⟩ := bind_eq_ok rest
  cases rest
  unfold readBody at body
  split at body
  · obtain ⟨⟨next, left⟩, taken, body⟩ := bind_eq_ok body
    obtain ⟨_, _, body⟩ := bind_eq_ok body
    cases body
    exact increasing_of_readFields Table.increasing_nil taken
  · exact increasing_of_readMembers Table.increasing_nil body
  · cases body

/-- The file of a name without slashes is found below a point as it is by its name. -/
theorem entry_below_here {tree : FileTree} {entry : Entry}
    (leads : tree.entry ⟨fileName⟩ = .ok entry) :
    tree.entry ((Path.mk ".").join ⟨fileName⟩) = .ok entry := by
  obtain ⟨location, resolved, there⟩ := FileTree.entry_eq_ok_iff.mp leads
  have sound : FileTree.Sound ((Path.mk ".").join ⟨fileName⟩) := by
    constructor <;> decide
  have named : tree.resolveFrom true FileTree.linkLimit tree.here [fileName] =
      .ok (.taken location) := by
    rw [FileTree.resolve_of_sound (FileTree.sound_of_resolve resolved),
      FileTree.steps_of_plain plain_fileName] at resolved
    exact resolved
  obtain ⟨_, entries, here⟩ := FileTree.dir_of_resolveFrom named
  refine FileTree.entry_eq_ok_iff.mpr ⟨location, ?_, there⟩
  rw [FileTree.resolve_join plain_fileName sound]
  exact (FileTree.resolveFrom_cons_of_on (FileTree.move_here (.inr rfl) here)).trans named

/-- What is created where there was no file is loaded as the default settings. -/
theorem load_of_init {tree : FileTree} {result : CommandResult}
    (created : (init tree).result = .ok result) :
    load (init tree).tree ⟨"."⟩ = .ok ⟨{}, true⟩ := by
  have parsed : parse defaultText = .ok {} :=
    parse_printed (.pretty 0 _) Table.increasing_nil
  unfold init at created ⊢
  dsimp only at created ⊢
  split at created
  · cases created
  · rename_i absent
    rw [if_neg absent]
    cases written : tree.write ⟨fileName⟩ (.text defaultText) with
    | error error =>
        rw [written] at created
        cases created
    | ok after =>
        have leads := entry_below_here (FileTree.entry_of_write written)
        have found : find? after ⟨"."⟩ = some ((Path.mk ".").join ⟨fileName⟩) := by
          rw [find?_eq, if_pos (FileTree.pathExists_iff.mpr ⟨_, leads⟩)]
        dsimp only
        rw [load, found]
        dsimp only
        rw [FileTree.readText_of_entry leads]
        simp only [Except.mapError, bind, Except.bind, parsed]
        rfl

/-- Settings that are printed in either layout are read back as they were, and so are judged the
same. What is read from any text has that property, and so does the file of a new project. -/
theorem printed_settings_are_read_back (config : Config)
    (increasing : Table.Increasing config.unknownKeys) :
    (parse config.toValue.compact = .ok config ∧ parse config.toValue.pretty = .ok config) ∧
      (config.toValue.member? "localesOutPath" = config.localesOutPath.map Value.string) ∧
      (∀ again, parse config.toValue.compact = .ok again ∨ parse config.toValue.pretty = .ok again →
        again.validate = config.validate) ∧
      (∀ text read, parse text = .ok read → parse read.toValue.compact = .ok read) ∧
      ∀ tree result, (init tree).result = .ok result →
        load (init tree).tree ⟨"."⟩ = .ok ⟨{}, true⟩ ∧ ({} : Config).validate = .ok () := by
  have compact : parse config.toValue.compact = .ok config :=
    parse_printed (.compact _) increasing
  have pretty : parse config.toValue.pretty = .ok config := parse_printed (.pretty 0 _) increasing
  refine ⟨⟨compact, pretty⟩, ?_, ?_, ?_, ?_⟩
  · unfold toValue
    cases config.localesOutPath <;> simp [Value.member?, Table.get?_cons]
  · rintro again (done | done)
    · cases compact.symm.trans done
      rfl
    · cases pretty.symm.trans done
      rfl
  · intro text read done
    exact parse_printed (.compact _) (increasing_of_parse done)
  · intro tree result created
    exact ⟨load_of_init created, rfl⟩

/-- Settings with an output path and texts that need escapes. -/
def quotedSettings : Config :=
  { localesOutPath := some "out\\\"1\""
    fnNames := ["t", "i18n\t"]
    unknownKeys := [("t(\"\x01\")", ["page\n", "é"]), ("t(k)", [])]
    silent := false
    ignores := [""] }

theorem quoted_settings_are_read_back :
    Table.Increasing quotedSettings.unknownKeys ∧
      parse quotedSettings.toValue.compact = .ok quotedSettings ∧
      parse quotedSettings.toValue.pretty = .ok quotedSettings ∧
      load (init (FileTree.empty "w")).tree ⟨"."⟩ = .ok ⟨{}, true⟩ := by
  have increasing : Table.Increasing quotedSettings.unknownKeys := by
    unfold Table.Increasing
    decide
  obtain ⟨⟨compact, pretty⟩, _, _, _, new⟩ :=
    printed_settings_are_read_back quotedSettings increasing
  exact ⟨increasing, compact, pretty, (new (FileTree.empty "w") _ rfl).1⟩

end Phrasebook.Config
