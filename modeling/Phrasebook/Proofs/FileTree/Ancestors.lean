import Mathlib.Data.List.Infix
import Phrasebook.Proofs.FileTree.SameWay

/-!
# Ancestors of a path

The parent of a path is cut from its text: without its last name, whatever that name is.  The
ancestors are therefore the paths of which the names begin those of the path.
-/

namespace Phrasebook
namespace Path

open FileTree

variable {path above left right : Path} {text : List Char}

/-- Two paths with the same parts: the same opening and the same names. -/
structure SameParts (left right : Path) : Prop where
  opening : left.opening = right.opening
  names : left.names = right.names

theorem SameParts.refl (path : Path) : SameParts path path :=
  ⟨rfl, rfl⟩

theorem SameParts.trans {middle : Path} (first : SameParts left middle)
    (second : SameParts middle right) : SameParts left right :=
  ⟨first.opening.trans second.opening, first.names.trans second.names⟩

/-- A slash at the end of a path is no part of it. -/
theorem sameParts_slash (somewhere : text ≠ []) :
    SameParts ⟨String.ofList text⟩ ⟨String.ofList (text ++ ['/'])⟩ := by
  have pieces : pieces (String.ofList (text ++ ['/'])) = pieces (String.ofList text) := by
    simp [FileTree.pieces, split_append_slash, split]
  have absolute : (Path.mk (String.ofList (text ++ ['/']))).isAbsolute =
      (Path.mk (String.ofList text)).isAbsolute := by
    cases text with
    | nil => exact absurd rfl somewhere
    | cons c rest => simp [isAbsolute]
  refine ⟨?_, ?_⟩
  · cases root : (Path.mk (String.ofList text)).isAbsolute with
    | true => rw [opening_of_absolute root, opening_of_absolute (absolute.trans root)]
    | false =>
        rw [opening_of_relative root, opening_of_relative (absolute.trans root), pieces]
  · rw [names, names, pieces]

/-- A text behind a slash adds its names to a path. -/
theorem parts_append_slash (front : List Char) {name : List Char} (noSlash : '/' ∉ name) :
    (Path.mk (String.ofList (front ++ '/' :: name))).opening =
        (Path.mk (String.ofList (front ++ ['/']))).opening ∧
      (Path.mk (String.ofList (front ++ '/' :: name))).names =
        (Path.mk (String.ofList (front ++ ['/']))).names ++
          (Path.mk (String.ofList name)).names := by
  have whole : Path.mk (String.ofList (front ++ '/' :: name)) =
      (Path.mk (String.ofList (front ++ ['/']))).join ⟨String.ofList name⟩ := by
    rw [join, not_isAbsolute_of_not_mem (by simpa using noSlash), if_neg Bool.false_ne_true,
      if_pos (.inr (by simp)), ← String.ofList_append, List.append_assoc, List.singleton_append]
  have relative : (Path.mk (String.ofList name)).isAbsolute = false :=
    not_isAbsolute_of_not_mem (by simpa using noSlash)
  rw [whole]
  exact ⟨opening_join relative (by simp), names_join relative⟩

/-- A text that ends in a name, or is nothing but an opening. -/
inductive Settled : List Char → Prop where
  | nothing : Settled []
  | root : Settled ['/']
  | here : Settled ['.']
  | alone {name : List Char} : '/' ∉ name → name ≠ [] → name ≠ ['.'] → Settled name
  | behind (front : List Char) {name : List Char} : '/' ∉ name → name ≠ [] → name ≠ ['.'] →
      Settled (front ++ '/' :: name)

theorem settled_of_ends (notEnded : text.getLast? ≠ some '/') (notHere : text ≠ ['.'])
    (notBehind : ∀ front, text ≠ front ++ ['/', '.']) : Settled text := by
  obtain ⟨above, name, parts, whole⟩ := exists_split_append text
  have noSlash : '/' ∉ name :=
    not_mem_of_mem_split (parts ▸ List.mem_append_right above (List.mem_singleton_self name))
  rcases whole with rfl | ⟨front, rfl⟩
  · by_cases nonempty : text = []
    · exact nonempty ▸ .nothing
    · exact .alone noSlash nonempty notHere
  · refine .behind front noSlash ?_ ?_
    · rintro rfl
      simp at notEnded
    · rintro rfl
      exact notBehind front rfl

theorem trimEnd_spec (fuel : Nat) (reversed : List Char) (enough : reversed.length ≤ fuel) :
    SameParts ⟨String.ofList (trimEnd true fuel reversed).reverse⟩
        ⟨String.ofList reversed.reverse⟩ ∧
      Settled (trimEnd true fuel reversed).reverse ∧ trimEnd true fuel reversed <:+ reversed := by
  induction fuel generalizing reversed with
  | zero =>
      obtain rfl := List.length_eq_zero_iff.mp (Nat.le_zero.mp enough)
      exact ⟨.refl _, .nothing, List.suffix_rfl⟩
  | succ fuel ih =>
      unfold trimEnd
      split
      · exact ⟨.refl _, .root, List.suffix_rfl⟩
      · rename_i rest more
        obtain ⟨same, settled, inside⟩ := ih rest (by simpa using enough)
        refine ⟨same.trans ?_, settled, inside.trans (List.suffix_cons ..)⟩
        rw [List.reverse_cons]
        exact sameParts_slash (by simpa using more)
      · exact ⟨.refl _, .here, List.suffix_rfl⟩
      · rename_i rest
        obtain ⟨same, settled, inside⟩ := ih ('/' :: rest) (by simpa using enough)
        refine ⟨same.trans ?_, settled, inside.trans (List.suffix_cons ..)⟩
        have added := parts_append_slash rest.reverse (show '/' ∉ ['.'] by simp)
        have nothing : (Path.mk (String.ofList ['.'])).names = [] := by decide
        rw [nothing, List.append_nil] at added
        simpa using SameParts.mk added.1.symm added.2.symm
      · rename_i notRoot notEnded notHere notBehind
        refine ⟨.refl _, settled_of_ends ?_ ?_ ?_, List.suffix_rfl⟩
        · intro ended
          obtain ⟨front, equal⟩ := List.getLast?_eq_some_iff.mp ended
          have whole : reversed = '/' :: front.reverse := by
            rw [← List.reverse_reverse reversed, equal]
            simp
          exact notEnded _ whole
        · intro equal
          exact notHere (by rw [← List.reverse_reverse reversed, equal]; rfl)
        · intro front equal
          refine notBehind front.reverse ?_
          rw [← List.reverse_reverse reversed, equal]
          simp

/-! ## The parent -/

theorem names_alone {name : List Char} (noSlash : '/' ∉ name) (nonempty : name ≠ [])
    (notHere : name ≠ ['.']) :
    (Path.mk (String.ofList name)).opening = none ∧
      (Path.mk (String.ofList name)).names = [String.ofList name] := by
  have pieces : pieces (String.ofList name) = [String.ofList name] := by
    rw [pieces_of_not_mem (by simpa using noSlash), if_neg (by simpa using nonempty)]
  have other : String.ofList name ≠ "." := by
    intro equal
    exact notHere (by rw [← String.toList_ofList (l := name), equal]; rfl)
  refine ⟨?_, ?_⟩
  · rw [opening_of_relative (not_isAbsolute_of_not_mem (by simpa using noSlash)), pieces]
    simp [other]
  · simp [names, pieces, other]

/-- What stands behind the opening of a text in which the last name stands at the end. -/
theorem Settled.cut (settled : Settled text) {names : List String} {name : String}
    (parts : (Path.mk (String.ofList text)).names = names ++ [name]) :
    ∃ front, text = front ++ name.toList ∧ name.toList ≠ [] ∧
      (Path.mk (String.ofList front)).opening = (Path.mk (String.ofList text)).opening ∧
      (Path.mk (String.ofList front)).names = names := by
  cases settled with
  | nothing => simp [Path.names, FileTree.pieces, split] at parts
  | root => simp [Path.names, FileTree.pieces, split] at parts
  | here => simp [Path.names, FileTree.pieces, split] at parts
  | alone noSlash nonempty notHere =>
      obtain ⟨opening, alone⟩ := names_alone noSlash nonempty notHere
      rw [alone, ← List.nil_append [String.ofList text]] at parts
      obtain ⟨rfl, rfl⟩ := List.append_singleton_inj.mp parts
      refine ⟨[], by simp, by simpa using nonempty, ?_, rfl⟩
      rw [opening]
      rfl
  | @behind front name' noSlash nonempty notHere =>
      obtain ⟨opening, added⟩ := parts_append_slash front noSlash
      rw [added, (names_alone noSlash nonempty notHere).2] at parts
      obtain ⟨rfl, rfl⟩ := List.append_singleton_inj.mp parts
      exact ⟨front ++ ['/'], by simp, by simpa using nonempty, opening.symm, rfl⟩

theorem parent?_of_names_nil (nameless : path.names = []) :
    path.parent? = if path.opening = some .here then some ⟨""⟩ else none := by
  have parts : path.parts = path.opening.toList := by
    rw [parts_eq_opening, nameless, List.map_nil, List.append_nil]
  have kind : path.opening = none ∨ path.opening = some .root ∨ path.opening = some .here := by
    cases opening : path.opening with
    | none => exact .inl rfl
    | some part =>
        have either := (Option.filter_eq_some_iff.mp opening).2
        simpa using either
  unfold parent?
  rcases kind with opening | opening | opening
  · simp [parts, opening]
  · simp [parts, opening]
  · simp [parts, opening]

theorem parent?_of_names {names : List String} {name : String}
    (parts : path.names = names ++ [name]) :
    path.parent? =
      let trimmed := trimEnd true path.text.length path.text.toList.reverse
      let shorter := trimmed.drop name.toList.length
      some ⟨String.ofList (trimEnd true shorter.length shorter).reverse⟩ := by
  have last : path.parts.getLast? = some (partOf name) := by
    rw [parts_eq_opening, parts, List.map_append, List.map_singleton, ← List.append_assoc,
      List.getLast?_concat]
  have member : name ∈ path.names := parts ▸ List.mem_append_right names (List.mem_singleton_self _)
  have notHere : partOf name ≠ .here := by
    rw [Ne, partOf_eq_here_iff]
    rintro rfl
    simp [Path.names] at member
  have size : (partOf name).text.length = name.toList.length := by
    rw [text_partOf, String.length_toList]
  unfold parent?
  rw [last]
  split
  · rename_i nothing
    cases nothing
  · rename_i equal
    exact absurd (Option.some.inj equal) (partOf_ne_root name)
  · rename_i equal
    exact absurd (Option.some.inj equal) notHere
  · rename_i part equal
    cases equal
    rw [size]

/-- The parent of a path that has names is without the last one, and shorter. -/
theorem exists_parent? {names : List String} {name : String}
    (parts : path.names = names ++ [name]) :
    ∃ above, path.parent? = some above ∧ above.opening = path.opening ∧ above.names = names ∧
      above.text.toList <+: path.text.toList ∧
      above.text.toList.length < path.text.toList.length := by
  obtain ⟨same, settled, inside⟩ := trimEnd_spec path.text.length path.text.toList.reverse
    (by rw [List.length_reverse, String.length_toList])
  rw [List.reverse_reverse, String.ofList_toList] at same
  obtain ⟨front, whole, nonempty, opening, rest⟩ := settled.cut (same.names.trans parts)
  have shorter : (trimEnd true path.text.length path.text.toList.reverse).drop
      name.toList.length = front.reverse := by
    rw [← List.reverse_reverse (trimEnd ..), whole, List.reverse_append,
      List.drop_left' (List.length_reverse ..)]
  obtain ⟨same', _, inside'⟩ := trimEnd_spec front.reverse.length front.reverse (Nat.le_refl _)
  rw [List.reverse_reverse] at same'
  have begins : (trimEnd true front.reverse.length front.reverse).reverse <+: front := by
    simpa using List.reverse_prefix.mpr inside'
  have begins' : front ++ name.toList <+: path.text.toList := by
    rw [← whole]
    simpa using List.reverse_prefix.mpr inside
  have found := parent?_of_names parts
  dsimp only at found
  rw [shorter] at found
  rw [found]
  refine ⟨_, rfl, same'.opening.trans (opening.trans same.opening), same'.names.trans rest, ?_, ?_⟩
  · rw [String.toList_ofList]
    exact begins.trans ((List.prefix_append ..).trans begins')
  · rw [String.toList_ofList]
    have long := begins'.length_le
    have short := begins.length_le
    have some := List.length_pos_iff.mpr nonempty
    rw [List.length_append] at long
    omega

/-- What a parent is: nothing above a bare point, else the path without its last name. -/
theorem parent?_cases (found : path.parent? = some above) :
    (path.names = [] ∧ path.opening = some .here ∧ above = ⟨""⟩) ∨
      ∃ name, path.names = above.names ++ [name] ∧ above.opening = path.opening ∧
        above.text.toList <+: path.text.toList ∧
        above.text.toList.length < path.text.toList.length := by
  rcases List.eq_nil_or_concat path.names with nameless | ⟨names, name, parts⟩
  · rw [parent?_of_names_nil nameless] at found
    split at found
    · rename_i here
      exact .inl ⟨nameless, here, (Option.some.inj found).symm⟩
    · cases found
  · rw [List.concat_eq_append] at parts
    obtain ⟨above', found', opening, rest, begins, shorter⟩ := exists_parent? parts
    cases found.symm.trans found'
    exact .inr ⟨name, rest ▸ parts, opening, begins, shorter⟩

/-- A parent is shorter, so looking upwards comes to an end. -/
theorem length_lt_of_parent? (found : path.parent? = some above) :
    above.text.toList <+: path.text.toList ∧
      above.text.toList.length < path.text.toList.length := by
  rcases parent?_cases found with ⟨_, here, rfl⟩ | ⟨_, _, _, begins, shorter⟩
  · refine ⟨List.nil_prefix, List.length_pos_iff.mpr ?_⟩
    intro nothing
    have empty : path = ⟨""⟩ := congrArg Path.mk (String.toList_eq_nil_iff.mp nothing)
    rw [empty] at here
    cases here
  · exact ⟨begins, shorter⟩

theorem go_eq_of_fuel {fuel fuel' : Nat} (enough : path.text.toList.length < fuel)
    (enough' : path.text.toList.length < fuel') :
    ancestors.go fuel path = ancestors.go fuel' path := by
  induction fuel generalizing path fuel' with
  | zero => exact absurd enough (Nat.not_lt_zero _)
  | succ fuel ih =>
      cases fuel' with
      | zero => exact absurd enough' (Nat.not_lt_zero _)
      | succ fuel' =>
          rw [ancestors.go, ancestors.go]
          cases found : path.parent? with
          | none => rfl
          | some above =>
              have shorter := (length_lt_of_parent? found).2
              exact congrArg (path :: ·) (ih (by omega) (by omega))

/-- The ancestors go on to a path without a parent. -/
theorem ancestors_eq (path : Path) :
    path.ancestors = path :: (path.parent?.map ancestors).getD [] := by
  rw [ancestors, ancestors.go]
  cases found : path.parent? with
  | none => rfl
  | some above =>
      have shorter : above.text.toList.length < path.text.length :=
        String.length_toList ▸ (length_lt_of_parent? found).2
      have enough : above.text.toList.length < above.text.length + 1 :=
        String.length_toList ▸ Nat.lt_succ_self _
      exact congrArg (path :: ·) (go_eq_of_fuel shorter enough)

/-- What is so for a path and for the parent of each path for which it is so, is so for all
ancestors. -/
theorem forall_mem_ancestors {holds : Path → Prop} (start : holds path)
    (step : ∀ lower above, holds lower → lower.parent? = some above → holds above) :
    ∀ above ∈ path.ancestors, holds above := by
  generalize size : path.text.toList.length = length
  induction length using Nat.strongRecOn generalizing path with
  | ind length ih =>
      rw [ancestors_eq]
      intro above member
      rcases List.mem_cons.mp member with rfl | member
      · exact start
      · cases found : path.parent? with
        | none => simp [found] at member
        | some parent =>
            rw [found] at member
            have shorter := (length_lt_of_parent? found).2
            exact ih _ (size ▸ shorter) (step path parent start found) rfl above member

/-- The names of the ancestors are those with which the names of the path begin, the longest first;
below a point they are looked at once more without it. -/
theorem map_names_ancestors (path : Path) :
    path.ancestors.map names =
      path.names.inits.reverse ++ if path.opening = some .here then [[]] else [] := by
  generalize parts : path.names = names
  induction names using List.reverseRecOn generalizing path with
  | nil =>
      have nothing : ancestors ⟨""⟩ = [⟨""⟩] := rfl
      rw [ancestors_eq, parent?_of_names_nil parts]
      split
      · rw [Option.map_some, nothing]
        simp [parts]
        rfl
      · simp [parts]
  | append_singleton front name ih =>
      obtain ⟨above, found, opening, rest, _⟩ := exists_parent? parts
      rw [ancestors_eq, found, List.map_cons, parts, Option.map_some, Option.getD_some,
        ih above rest, opening]
      simp [List.inits_append]

theorem isAbsolute_of_parent? (found : path.parent? = some above) :
    above.isAbsolute = path.isAbsolute := by
  have roots : above.opening = some .root ↔ path.opening = some .root := by
    rcases parent?_cases found with ⟨_, here, rfl⟩ | ⟨_, _, opening, _⟩
    · rw [here]
      exact iff_of_false (by decide) (by decide)
    · rw [opening]
  rw [opening_eq_root_iff, opening_eq_root_iff] at roots
  exact Bool.eq_iff_iff.mpr roots

end Path
end Phrasebook
