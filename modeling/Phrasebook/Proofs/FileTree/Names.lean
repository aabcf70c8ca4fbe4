import Mathlib.Data.List.TakeWhile
import Phrasebook.FileTree

/-!
# Names and paths

A plain name is what stands between two slashes of a path and is neither `.` nor `..`.
Joined to a directory, it is the last part of the path and the last step of its resolution.
-/

namespace Phrasebook
namespace Path

theorem split_ne_nil (text : List Char) : split text ≠ [] := by
  cases text with
  | nil => simp [split]
  | cons c rest =>
      rw [split]
      split
      · simp
      · split
        · simp
        · simp

theorem not_mem_of_mem_split {text part : List Char} (member : part ∈ split text) :
    '/' ∉ part := by
  induction text generalizing part with
  | nil =>
      obtain rfl : part = [] := by simpa [split] using member
      simp
  | cons c rest ih =>
      rw [split] at member
      split at member
      · rcases List.mem_cons.mp member with rfl | member
        · simp
        · exact ih member
      · rename_i noSlash
        cases parts : split rest with
        | nil => exact absurd parts (split_ne_nil rest)
        | cons first others =>
            rw [parts] at member ih
            rcases List.mem_cons.mp member with rfl | member
            · have kept := ih (List.mem_cons_self ..)
              simp [kept, Ne.symm noSlash]
            · exact ih (List.mem_cons_of_mem _ member)

theorem split_of_not_mem {text : List Char} (noSlash : '/' ∉ text) : split text = [text] := by
  induction text with
  | nil => rfl
  | cons c rest ih =>
      rw [List.mem_cons, not_or] at noSlash
      rw [split, if_neg (Ne.symm noSlash.1), ih noSlash.2]

theorem split_append_slash (front back : List Char) :
    split (front ++ '/' :: back) = split front ++ split back := by
  induction front with
  | nil => simp [split]
  | cons c rest ih =>
      rw [List.cons_append, split, split, ih]
      split
      · rfl
      · cases parts : split rest with
        | nil => exact absurd parts (split_ne_nil rest)
        | cons first others => rfl

/-- What a name must be to be one part of a path that leads downwards. -/
structure Plain (name : List Char) : Prop where
  nonempty : name ≠ []
  noSlash : '/' ∉ name
  notHere : name ≠ ['.']
  notUp : name ≠ ['.', '.']

variable {name : List Char} {path : Path}

instance (name : List Char) : Decidable (Plain name) :=
  decidable_of_iff (name ≠ [] ∧ '/' ∉ name ∧ name ≠ ['.'] ∧ name ≠ ['.', '.'])
    ⟨fun ⟨nonempty, noSlash, notHere, notUp⟩ => ⟨nonempty, noSlash, notHere, notUp⟩,
      fun ⟨nonempty, noSlash, notHere, notUp⟩ => ⟨nonempty, noSlash, notHere, notUp⟩⟩

theorem Plain.ofText (plain : Plain name) : Part.ofText name = .name (String.ofList name) := by
  rw [Part.ofText, if_neg plain.notHere, if_neg plain.notUp]

/-- The parts of a path are those of the texts between slashes, after the first one. -/
theorem parts_eq (path : Path) :
    ∃ first, (∀ name, .name name ∉ first) ∧ path.parts = first ++
      ((((split path.text.toList).filter (· ≠ [])).map Part.ofText).filter (· ≠ .here)) := by
  unfold parts
  dsimp only
  split
  · exact ⟨[.root], by simp, rfl⟩
  · split
    · rename_i equal
      refine ⟨[.here], by simp, ?_⟩
      rw [equal]
      simp [Part.ofText]
    · exact ⟨[], by simp, rfl⟩

/-- The last part of a path that ends in a plain name is that name. -/
theorem fileName?_of_text {front : List Char} (plain : Plain name)
    (text : path.text.toList = front ++ '/' :: name) :
    path.fileName? = some (String.ofList name) := by
  obtain ⟨first, _, parts⟩ := parts_eq path
  have last : path.parts.getLast? = some (.name (String.ofList name)) := by
    rw [parts, text, split_append_slash, split_of_not_mem plain.noSlash]
    simp [plain.nonempty, plain.ofText]
  rw [fileName?, last]

/-- A file name is a plain name. -/
theorem plain_of_fileName? {text : String} (found : path.fileName? = some text) :
    Plain text.toList := by
  obtain ⟨first, notFirst, parts⟩ := parts_eq path
  have last : path.parts.getLast? = some (.name text) := by
    unfold fileName? at found
    split at found
    · rename_i name last
      rw [last, Option.some.inj found]
    · cases found
  have member : Part.name text ∈ path.parts := List.mem_of_getLast? last
  rw [parts, List.mem_append] at member
  have piece := (member.resolve_left (notFirst text))
  simp only [List.mem_filter, List.mem_map] at piece
  obtain ⟨⟨piece, ⟨inside, nonempty⟩, equal⟩, _⟩ := piece
  unfold Part.ofText at equal
  split at equal
  · cases equal
  · rename_i notHere
    split at equal
    · cases equal
    · rename_i notUp
      obtain rfl : String.ofList piece = text := Part.name.inj equal
      rw [String.toList_ofList]
      exact ⟨by simpa using nonempty, not_mem_of_mem_split inside, notHere, notUp⟩

section
variable {name : String} {dir : Path}

theorem not_isAbsolute_of_not_mem (noSlash : '/' ∉ name.toList) :
    (Path.mk name).isAbsolute = false := by
  unfold isAbsolute
  cases text : name.toList with
  | nil => rfl
  | cons c rest =>
      rw [text, List.mem_cons, not_or] at noSlash
      simpa using Ne.symm noSlash.1

theorem not_isAbsolute_of_plain (plain : Plain name.toList) :
    (Path.mk name).isAbsolute = false :=
  not_isAbsolute_of_not_mem plain.noSlash

theorem text_join_of_nowhere (plain : Plain name.toList) (nowhere : dir.text = "") :
    (dir.join ⟨name⟩).text = name := by
  simp [join, not_isAbsolute_of_plain plain, nowhere]

/-- A name joined to a directory follows the last slash.  What stands before it has the same
texts between slashes as the directory. -/
theorem text_join (plain : Plain name.toList) (somewhere : dir.text ≠ "") :
    ∃ front, (dir.join ⟨name⟩).text.toList = front ++ '/' :: name.toList ∧
      (split front).filter (· ≠ []) = (split dir.text.toList).filter (· ≠ []) := by
  rw [join, not_isAbsolute_of_plain plain, if_neg Bool.false_ne_true]
  by_cases ended : dir.text.toList.getLast? = some '/'
  · obtain ⟨front, split⟩ := List.getLast?_eq_some_iff.mp ended
    refine ⟨front, ?_, ?_⟩
    · simp [split]
    · rw [split, split_append_slash]
      simp [Path.split]
  · refine ⟨dir.text.toList, ?_, rfl⟩
    simp [ended, somewhere]

/-- A name joined to a directory is the name of the file there. -/
theorem fileName?_join_of_plain (plain : Plain name.toList) (somewhere : dir.text ≠ "") :
    (dir.join ⟨name⟩).fileName? = some name := by
  obtain ⟨front, text, _⟩ := text_join plain somewhere
  rw [fileName?_of_text plain text, String.ofList_toList]

/-- A name joined to a directory comes after all of its text. -/
theorem isPrefix_join (plain : Plain name.toList) (dir : Path) :
    dir.text.toList <+: (dir.join ⟨name⟩).text.toList := by
  rw [join, not_isAbsolute_of_plain plain, if_neg Bool.false_ne_true]
  split
  · simp
  · simp

end

/-! ## Stems and extensions -/

/-- A name is cut at its last point, unless nothing stands before it. -/
theorem splitName_append {stem ending : List Char} (noPoint : '.' ∉ ending) :
    splitName (stem ++ '.' :: ending) =
      if stem = [] ∨ stem ++ '.' :: ending = ['.', '.'] then (stem ++ '.' :: ending, none)
      else (stem, some ending) := by
  have last : ((stem ++ '.' :: ending).reverse.takeWhile fun c => decide (c ≠ '.')).reverse =
      ending := by
    have points : ∀ c ∈ ending.reverse, decide (c ≠ '.') = true := by
      intro c member
      have inside : c ∈ ending := List.mem_reverse.mp member
      exact decide_eq_true fun equal => noPoint (equal ▸ inside)
    rw [List.reverse_append, List.reverse_cons, List.append_assoc,
      List.takeWhile_append_of_pos points]
    simp
  have before : (stem ++ '.' :: ending).take
      ((stem ++ '.' :: ending).length - ending.length - 1) = stem := by
    have length : (stem ++ '.' :: ending).length - ending.length - 1 = stem.length := by
      simp only [List.length_append, List.length_cons]
      omega
    rw [length, List.take_left]
  have shorter : ending.length ≠ (stem ++ '.' :: ending).length := by
    simp only [List.length_append, List.length_cons]
    omega
  unfold splitName
  simp only [last, before, shorter, false_or]

theorem splitName_of_not_mem (noPoint : '.' ∉ name) : splitName name = (name, none) := by
  have all : name.reverse.takeWhile (fun c => decide (c ≠ '.')) = name.reverse := by
    apply List.takeWhile_eq_self_iff.mpr
    intro c member
    have inside : c ∈ name := List.mem_reverse.mp member
    exact decide_eq_true fun equal => noPoint (equal ▸ inside)
  unfold splitName
  simp only [all, List.reverse_reverse, true_or, if_true]

/-- A name with an extension is its stem, a point and the extension. -/
theorem eq_of_splitName {stem ending : List Char}
    (cut : splitName name = (stem, some ending)) : name = stem ++ '.' :: ending ∧ stem ≠ [] := by
  by_cases point : '.' ∈ name
  · obtain ⟨after, before, split, noPoint⟩ :=
      List.eq_append_cons_of_mem (List.mem_reverse.mpr point)
    have whole : name = before.reverse ++ '.' :: after.reverse := by
      rw [← List.reverse_reverse name, split]
      simp
    rw [whole, splitName_append (by simpa using noPoint)] at cut
    split at cut
    · cases cut
    · rename_i kept
      obtain ⟨rfl, equal⟩ := Prod.mk.inj cut
      rw [not_or] at kept
      exact ⟨Option.some.inj equal ▸ whole, kept.1⟩
  · rw [splitName_of_not_mem point] at cut
    cases cut

/-- The name of a locale as it can stand in the name of a file. -/
structure Names (locale : String) : Prop where
  nonempty : locale.toList ≠ []
  noSlash : '/' ∉ locale.toList

variable {locale : String}

theorem Names.plain (names : Names locale) : Plain (locale ++ ".json").toList := by
  rw [String.toList_append]
  refine ⟨by simp [names.nonempty], ?_, ?_, ?_⟩
  · simp [names.noSlash]
  · intro equal
    have length := congrArg List.length equal
    simp at length
  · intro equal
    have length := congrArg List.length equal
    simp at length

/-- The stem of a file with the extension of a locale file names a locale. -/
theorem names_of_fileStem? (stem : path.fileStem? = some locale)
    (extension : path.extension? = some "json") : Names locale := by
  obtain ⟨name, found, rfl⟩ := Option.map_eq_some_iff.mp stem
  rw [extension?, found, Option.bind_some] at extension
  obtain ⟨ending, ended, _⟩ := Option.map_eq_some_iff.mp extension
  have cut : splitName name.toList = ((splitName name.toList).1, some ending) := by rw [← ended]
  obtain ⟨whole, nonempty⟩ := eq_of_splitName cut
  have noSlash := (plain_of_fileName? found).noSlash
  rw [whole, List.mem_append, not_or] at noSlash
  exact ⟨by simpa using nonempty, by simpa using noSlash.1⟩

variable {dir : Path}

theorem fileName?_join (names : Names locale) (somewhere : dir.text ≠ "") :
    (dir.join ⟨locale ++ ".json"⟩).fileName? = some (locale ++ ".json") :=
  fileName?_join_of_plain names.plain somewhere

theorem splitName_names (names : Names locale) :
    splitName (locale ++ ".json").toList = (locale.toList, some "json".toList) := by
  have longer : locale.toList ++ '.' :: "json".toList ≠ ['.', '.'] := by
    intro equal
    have length := congrArg List.length equal
    simp at length
  have noPoint : '.' ∉ "json".toList := by decide
  rw [String.toList_append, show ".json".toList = '.' :: "json".toList from rfl,
    splitName_append noPoint, if_neg (not_or.mpr ⟨names.nonempty, longer⟩)]

theorem fileStem?_join (names : Names locale) (somewhere : dir.text ≠ "") :
    (dir.join ⟨locale ++ ".json"⟩).fileStem? = some locale := by
  rw [fileStem?, fileName?_join names somewhere, Option.map_some, splitName_names names,
    String.ofList_toList]

theorem extension?_join (names : Names locale) (somewhere : dir.text ≠ "") :
    (dir.join ⟨locale ++ ".json"⟩).extension? = some "json" := by
  rw [extension?, fileName?_join names somewhere, Option.bind_some, splitName_names names,
    Option.map_some, String.ofList_toList]

end Path
end Phrasebook
