import Phrasebook.Proofs.FileTree.SameWay
import Phrasebook.Proofs.Glob.Matching
import Phrasebook.Proofs.Glob.Openings

/-!
# Components of patterns

A text without wildcards and brackets is a pattern for itself, and in front of a pattern it changes
nothing in what is behind its last slash.  So a path joined to a pattern has the path's own names as
its first components, and fails to be a pattern only if what is behind the path does.
-/

namespace Phrasebook.Glob

open Phrasebook.Path

variable {pattern : Pattern} {text front back chars : List Char} {before before' : Option Char}
variable {reversed reversed' tokens : List Token} {fuel position position' : Nat}

/-- Whether a text has no character with which a wildcard or a bracketed piece begins. -/
def Literal (text : List Char) : Prop :=
  ∀ c ∈ text, c ≠ '?' ∧ c ≠ '*' ∧ c ≠ '['

instance (text : List Char) : Decidable (Literal text) :=
  List.decidableBAll (fun c => c ≠ '?' ∧ c ≠ '*' ∧ c ≠ '[') text

/-- The pattern that stands for a text only. -/
def Pattern.ofText (text : String) : Pattern :=
  ⟨text.toList.map .char⟩

/-- Literal characters are read one by one. -/
theorem tokenize_append (literal : Literal front) :
    tokenize (fuel + front.length) position before reversed (front ++ text) =
      tokenize fuel (position + front.length) (front.getLast?.or before)
        ((front.map .char).reverse ++ reversed) text := by
  induction front generalizing position before reversed with
  | nil => simp
  | cons c rest ih =>
      obtain ⟨⟨noAny, noSequence, noBracket⟩, literal⟩ := List.forall_mem_cons.mp literal
      rw [List.length_cons, ← Nat.add_assoc, List.cons_append, tokenize]
      simp only [if_neg noAny, if_neg noSequence, if_neg noBracket]
      rw [ih literal]
      have last : (c :: rest).getLast?.or before = rest.getLast?.or (some c) := by
        cases rest with
        | nil => rfl
        | cons d rest => simp [List.getLast?_cons]
      rw [last, List.map_cons, List.reverse_cons, List.append_assoc, List.singleton_append,
        Nat.add_assoc, Nat.add_comm 1]

theorem parse_of_literal {text : String} (literal : Literal text.toList) :
    Pattern.parse text = .ok (Pattern.ofText text) := by
  have read : tokenize (1 + text.toList.length) 0 none [] (text.toList ++ []) = _ :=
    tokenize_append literal
  rw [List.append_nil, String.length_toList, Nat.add_comm 1] at read
  rw [Pattern.parse, read, tokenize, List.append_nil, List.reverse_reverse]
  rfl

/-- Whether the rest of a text is a pattern depends on what is before it only as far as a component
begins there. -/
theorem isOk_tokenize (same : (before = none ∨ before = some '/') ↔
      (before' = none ∨ before' = some '/')) :
    (tokenize fuel position before reversed text).isOk =
      (tokenize fuel position' before' reversed' text).isOk := by
  induction fuel generalizing position position' before before' reversed reversed' text with
  | zero => rfl
  | succ fuel ih =>
      cases text with
      | nil => rfl
      | cons c rest =>
          rw [tokenize, tokenize]
          dsimp only
          split
          · exact ih Iff.rfl
          · split
            · split
              · rfl
              · split
                · exact ih Iff.rfl
                · by_cases begins : before = none ∨ before = some '/'
                  · rw [if_pos begins, if_pos (same.mp begins)]
                    split
                    · exact ih Iff.rfl
                    · split
                      · exact ih Iff.rfl
                      · rfl
                  · rw [if_neg begins, if_neg (begins ∘ same.mpr)]
                    rfl
            · split
              · split
                · exact ih Iff.rfl
                · rfl
              · exact ih Iff.rfl

/-- A text is a pattern if it is one behind a literal text that ends in a slash. -/
theorem isOk_parse_append {directory glob : String} (literal : Literal directory.toList)
    (ended : directory.toList.getLast? = some '/') :
    (Pattern.parse (directory ++ glob)).isOk = (Pattern.parse glob).isOk := by
  have isOk_map : ∀ read : Except PatternError (List Token),
      (read.map Pattern.mk).isOk = read.isOk := fun read => by cases read <;> rfl
  have length : (directory ++ glob).length + 1 = glob.length + 1 + directory.toList.length := by
    rw [String.length_append, String.length_toList]
    omega
  rw [Pattern.parse, Pattern.parse, isOk_map, isOk_map, length, String.toList_append,
    tokenize_append literal, ended]
  exact isOk_tokenize (by simp)

theorem tokenize_nil : tokenize fuel position before reversed [] = .ok reversed.reverse := by
  cases fuel with
  | zero => rfl
  | succ fuel => rfl

/-- Behind a character that is no slash, a text without slashes has no wildcard for components. -/
theorem anyComponents_not_mem (noSlash : '/' ∉ text)
    (inside : ¬ (before = none ∨ before = some '/')) (absent : .anyComponents ∉ reversed)
    (read : tokenize fuel position before reversed text = .ok tokens) :
    .anyComponents ∉ tokens := by
  induction fuel generalizing position before reversed text with
  | zero =>
      cases read
      simpa using absent
  | succ fuel ih =>
      cases text with
      | nil =>
          cases read
          simpa using absent
      | cons c rest =>
          rw [List.mem_cons, not_or] at noSlash
          obtain ⟨_, last, _, _, onward, part, added⟩ := exists_of_tokenize_cons read
          obtain ⟨token, rfl, different, _, behind⟩ := added.resolve_right fun begins =>
            inside begins.1
          refine ih (fun member => noSlash.2 (part member)) ?_ ?_ onward
          · rcases behind with rfl | rfl
            · simpa using Ne.symm noSlash.1
            · simp
          · simpa [different.symm] using absent

/-- A text without slashes that has a wildcard for components is nothing else. -/
theorem eq_of_anyComponents_mem (noSlash : '/' ∉ text)
    (read : tokenize fuel position none [] text = .ok tokens) (member : .anyComponents ∈ tokens) :
    tokens = [.anyComponents] := by
  cases fuel with
  | zero =>
      cases read
      cases member
  | succ fuel =>
      cases text with
      | nil =>
          cases read
          cases member
      | cons c rest =>
          rw [List.mem_cons, not_or] at noSlash
          obtain ⟨_, last, _, _, onward, part, added⟩ := exists_of_tokenize_cons read
          rcases added with ⟨token, rfl, different, _, behind⟩ | ⟨_, rfl, none | slash⟩
          · refine absurd member (anyComponents_not_mem (fun slash => noSlash.2 (part slash)) ?_ ?_
              onward)
            · rcases behind with rfl | rfl
              · simpa using Ne.symm noSlash.1
              · simp
            · simpa using different.symm
          · rw [none, tokenize_nil] at onward
            cases onward
            rfl
          · exact absurd slash noSlash.2

/-- A component for any number of names is nothing else. -/
theorem tokens_of_isRecursive {component : String} (noSlash : '/' ∉ component.toList)
    (parsed : Pattern.parse component = .ok pattern) (recursive : pattern.isRecursive = true) :
    pattern.tokens = [.anyComponents] := by
  unfold Pattern.parse at parsed
  cases read : tokenize (component.length + 1) 0 none [] component.toList with
  | error error =>
      rw [read] at parsed
      cases parsed
  | ok tokens =>
      rw [read] at parsed
      cases parsed
      have member : .anyComponents ∈ tokens := by simpa [Pattern.isRecursive] using recursive
      exact eq_of_anyComponents_mem noSlash read member

/-- What a pattern is that stands between two slashes. -/
structure Pattern.IsComponent (pattern : Pattern) : Prop where
  slashless : Slashless pattern
  alone : pattern.isRecursive = true → pattern.tokens = [.anyComponents]

theorem isComponent_of_components {patterns : List Pattern}
    (parsed : (components text).mapM Pattern.parse = .ok patterns) :
    ∀ pattern ∈ patterns, pattern.IsComponent := by
  intro pattern member
  obtain ⟨component, inside, read⟩ := exists_of_mapM_parse parsed member
  have noSlash := not_mem_of_mem_components inside
  exact ⟨slashless_of_parse noSlash read, tokens_of_isRecursive noSlash read⟩

/-! ## Texts as components -/

theorem components_append (front back : List Char) :
    components (front ++ '/' :: back) = (split front).map String.ofList ++ components back := by
  unfold components
  simp only [split_append_slash, List.getLast?_append_of_ne_nil _ (split_ne_nil back)]
  split
  · rw [List.dropLast_append_of_ne_nil (split_ne_nil back), List.map_append]
  · rw [List.map_append]

/-- A slash at the end only ends the last component. -/
theorem components_slash (text : List Char) :
    components (text ++ ['/']) = (split text).map String.ofList := by
  rw [components_append]
  exact List.append_nil _

theorem components_of_not_ended (nonempty : text ≠ []) (notEnded : text.getLast? ≠ some '/') :
    components text = (split text).map String.ofList := by
  obtain ⟨above, name, divided, whole⟩ := FileTree.exists_split_append text
  have named : name ≠ [] := by
    rintro rfl
    rcases whole with nothing | ⟨front, ended⟩
    · exact nonempty nothing
    · exact notEnded (by simp [ended])
  unfold components
  rw [divided]
  simp [named]

theorem components_ne_nil (nonempty : text ≠ []) : components text ≠ [] := by
  by_cases ended : text.getLast? = some '/'
  · obtain ⟨front, rfl⟩ := List.getLast?_eq_some_iff.mp ended
    rw [components_slash]
    simpa using split_ne_nil front
  · rw [components_of_not_ended nonempty ended]
    simpa using split_ne_nil text

/-- The components of a path stand in front of what follows it. -/
theorem components_slashed (path : Path) (back : List Char) :
    components (path.slashed.text.toList ++ back) =
      components path.text.toList ++ components back := by
  by_cases nowhere : path.text = ""
  · rw [slashed_of_ended (.inl nowhere), nowhere]
    rfl
  · by_cases ended : path.text.toList.getLast? = some '/'
    · obtain ⟨front, whole⟩ := List.getLast?_eq_some_iff.mp ended
      rw [slashed_of_ended (.inr ended), whole, components_slash, List.append_assoc,
        List.singleton_append, components_append]
    · have nonempty : path.text.toList ≠ [] := fun nil =>
        nowhere (String.toList_eq_nil_iff.mp nil)
      rw [slashed_of_unslashed ⟨nowhere, ended⟩, components_of_not_ended nonempty ended,
        ← components_append]
      simp

/-- One behind the other, the components of a text are a short spelling of it. -/
theorem trims_joinAll_components {path : Path}
    (apart : path.text ≠ "" ∨ (text ≠ [] ∧ text.head? ≠ some '/')) :
    Trims (path.joinAll (components text)) ⟨path.slashed.text ++ String.ofList text⟩ := by
  by_cases nonempty : text = []
  · subst nonempty
    rw [show path.slashed.text ++ String.ofList [] = path.slashed.text from String.append_empty]
    exact trims_slashed (apart.resolve_right (by simp))
  · by_cases ended : text.getLast? = some '/'
    · obtain ⟨front, rfl⟩ := List.getLast?_eq_some_iff.mp ended
      rw [components_slash]
      have trims : Trims (path.joinAll ((split front).map String.ofList))
          ⟨path.slashed.text ++ String.ofList front⟩ := by
        refine trims_joinAll_split rfl (apart.imp_right ?_)
        rintro ⟨_, noSlash⟩
        cases front with
        | nil => simp
        | cons c rest => simpa using noSlash
      refine trims.trans ?_
      have somewhere : path.slashed.text ++ String.ofList front ≠ "" := by
        intro nowhere
        rw [← String.toList_eq_nil_iff, String.toList_append, List.append_eq_nil_iff,
          String.toList_ofList, String.toList_eq_nil_iff] at nowhere
        rcases apart with somewhere | ⟨_, noSlash⟩
        · exact slashed_ne_empty somewhere nowhere.1
        · exact noSlash (by simp [nowhere.2])
      have whole : path.slashed.text ++ String.ofList (front ++ ['/']) =
          path.slashed.text ++ String.ofList front ++ "/" := by
        rw [← String.toList_inj]
        simp
      rw [whole]
      exact trims_slash somewhere
    · rw [components_of_not_ended nonempty ended]
      exact trims_joinAll_split rfl (apart.imp_right And.right)

theorem subset_of_mem_split {piece : List Char} (member : piece ∈ split text) : piece ⊆ text := by
  induction text generalizing piece with
  | nil =>
      obtain rfl : piece = [] := by simpa [split] using member
      exact List.nil_subset _
  | cons c rest ih =>
      rw [split] at member
      split at member
      · rcases List.mem_cons.mp member with rfl | member
        · exact List.nil_subset _
        · exact List.subset_cons_of_subset c (ih member)
      · cases parts : split rest with
        | nil => exact absurd parts (split_ne_nil rest)
        | cons first others =>
            rw [parts] at member ih
            rcases List.mem_cons.mp member with rfl | member
            · exact List.cons_subset_cons c (ih (List.mem_cons_self ..))
            · exact List.subset_cons_of_subset c (ih (List.mem_cons_of_mem _ member))

theorem literal_of_mem_components (literal : Literal text) {component : String}
    (member : component ∈ components text) : Literal component.toList := by
  obtain ⟨piece, inside, rfl⟩ := List.mem_map.mp member
  have divided : piece ∈ split text := by
    split at inside
    · exact List.dropLast_subset _ inside
    · exact inside
  intro c within
  rw [String.toList_ofList] at within
  exact literal c (subset_of_mem_split divided within)

variable {parts : List String}

theorem mapM_parse_of_literal (literal : ∀ part ∈ parts, Literal part.toList) :
    parts.mapM Pattern.parse = .ok (parts.map Pattern.ofText) := by
  induction parts with
  | nil => rfl
  | cons part rest ih =>
      obtain ⟨literalPart, literal⟩ := List.forall_mem_cons.mp literal
      rw [List.mapM_cons, parse_of_literal literalPart, ih literal]
      rfl

theorem ne_nil_of_mapM_parse {patterns : List Pattern}
    (parsed : parts.mapM Pattern.parse = .ok patterns) (nonempty : parts ≠ []) :
    patterns ≠ [] := by
  rintro rfl
  cases parts with
  | nil => exact nonempty rfl
  | cons part rest =>
      rw [List.mapM_cons] at parsed
      cases first : Pattern.parse part with
      | error error => simp [first, bind, Except.bind] at parsed
      | ok pattern =>
          cases others : rest.mapM Pattern.parse with
          | error error => simp [first, others, bind, Except.bind] at parsed
          | ok patterns => simp [first, others, bind, Except.bind, pure, Except.pure] at parsed

theorem isOk_mapM_parse :
    (parts.mapM Pattern.parse).isOk = true ↔ ∀ part ∈ parts, (Pattern.parse part).isOk = true := by
  induction parts with
  | nil => simp [Except.isOk, Except.toBool, pure, Except.pure]
  | cons part rest ih =>
      rw [List.mapM_cons, List.forall_mem_cons, ← ih]
      cases Pattern.parse part with
      | error error => simp [bind, Except.bind, Except.isOk, Except.toBool]
      | ok pattern =>
          cases rest.mapM Pattern.parse with
          | error error => simp [bind, Except.bind, Except.isOk, Except.toBool]
          | ok patterns => simp [bind, Except.bind, Except.isOk, Except.toBool, pure, Except.pure]

end Phrasebook.Glob
