import Phrasebook.Proofs.Glob.Searching

/-!
# Expanding a pattern below a path

A pattern that is joined to a path without wildcards has the names of the path as its first
components, each of which stands for itself.  So what the whole stands for lies below the path,
where the components of the pattern lead.
-/

namespace Phrasebook.Glob

open Phrasebook.Path

variable {tree : FileTree} {path root found : Path} {glob : String} {paths : List Path}
variable {patterns : List Pattern} {steps : List String}

/-- The slashes with which a path begins. -/
def leading (path : Path) : List Char :=
  path.text.toList.takeWhile (· == '/')

/-- The text of a path without the slashes with which it begins. -/
def trailing (path : Path) : List Char :=
  path.text.toList.dropWhile (· == '/')

/-- Where the search for a pattern begins. -/
def origin (path : Path) : Path :=
  if leading path = [] then ⟨"."⟩ else ⟨String.ofList (leading path)⟩

theorem leading_append_trailing (path : Path) : leading path ++ trailing path = path.text.toList :=
  List.takeWhile_append_dropWhile

theorem eq_slash_of_mem_leading {c : Char} (member : c ∈ leading path) : c = '/' := by
  simpa using List.mem_takeWhile_imp member

theorem exists_leading_cons (some : leading path ≠ []) : ∃ rest, leading path = '/' :: rest := by
  obtain ⟨c, rest, leads⟩ := List.exists_cons_of_ne_nil some
  obtain rfl : c = '/' := eq_slash_of_mem_leading (leads ▸ List.mem_cons_self ..)
  exact ⟨rest, leads⟩

theorem leading_cases (path : Path) :
    leading path = [] ∨ ∃ front, leading path = front ++ ['/'] := by
  refine (List.eq_nil_or_concat (leading path)).imp_right ?_
  rintro ⟨front, c, last⟩
  rw [List.concat_eq_append] at last
  have member : c ∈ leading path := by simp [last]
  exact ⟨front, eq_slash_of_mem_leading member ▸ last⟩

theorem head?_trailing (path : Path) : (trailing path).head? ≠ some '/' := by
  intro first
  have notSlash := List.head?_dropWhile_not (· == '/') path.text.toList
  rw [show (path.text.toList.dropWhile (· == '/')).head? = some '/' from first] at notSlash
  cases notSlash

theorem cut_of_head? {text : List Char} (first : text.head? ≠ some '/') :
    text.takeWhile (· == '/') = [] ∧ text.dropWhile (· == '/') = text := by
  cases text with
  | nil => exact ⟨rfl, rfl⟩
  | cons c rest =>
      have noSlash : ¬ (c == '/') = true := by simpa using first
      exact ⟨List.takeWhile_cons_of_neg noSlash, List.dropWhile_cons_of_neg noSlash⟩

theorem expand_eq (tree : FileTree) (path : Path) :
    expand tree path.text = (do
      let _ ← Pattern.parse path.text
      let patterns ← (components (trailing path)).mapM Pattern.parse
      let search : Search := ⟨tree, path.text.toList.getLast? = some '/'⟩
      return if patterns = [] then []
        else search.from (stepLimit + patterns.length) patterns (origin path)) := by
  have dropped : path.text.toList.drop (path.text.toList.takeWhile (· == '/')).length =
      trailing path :=
    (congrArg (List.drop _) (leading_append_trailing path).symm).trans List.drop_left
  unfold expand
  simp only [dropped]
  rfl

/-- The slash behind a path is written behind what follows its first slashes. -/
theorem slashed_eq (path : Path) : path.slashed.text.toList =
    leading path ++ (Path.mk (String.ofList (trailing path))).slashed.text.toList := by
  have whole := leading_append_trailing path
  rcases leading_cases path with none | ⟨front, last⟩
  · rw [none, List.nil_append] at whole
    rw [none, List.nil_append, whole, String.ofList_toList]
  · have text : path = ⟨String.ofList front ++ "/" ++ String.ofList (trailing path)⟩ := by
      refine congrArg Path.mk (String.toList_inj.mp ?_)
      rw [← whole, last]
      simp
    conv_lhs => rw [text, slashed_append_slash]
    rw [last]
    simp

section
variable (relative : (Path.mk glob).isAbsolute = false)
include relative

theorem toList_join (root : Path) : (root.join ⟨glob⟩).text.toList =
    leading root ++
      ((Path.mk (String.ofList (trailing root))).slashed.text.toList ++ glob.toList) := by
  rw [text_join_eq relative, String.toList_append, slashed_eq, List.append_assoc]

theorem head?_join (root : Path) :
    ((Path.mk (String.ofList (trailing root))).slashed.text.toList ++ glob.toList).head? ≠
      some '/' := by
  have first := head?_trailing root
  rw [text_slashed]
  cases text : trailing root with
  | nil => simpa [isAbsolute] using relative
  | cons c rest =>
      rw [text] at first
      split
      · simpa using first
      · simpa using first

/-- A pattern that is joined to a path begins where the path does. -/
theorem leading_join (root : Path) : leading (root.join ⟨glob⟩) = leading root := by
  have stops := head?_join relative root
  rw [leading, toList_join relative,
    List.takeWhile_append_of_pos (by simpa using fun c => eq_slash_of_mem_leading),
    (cut_of_head? stops).1, List.append_nil]

theorem trailing_join (root : Path) : trailing (root.join ⟨glob⟩) =
    (Path.mk (String.ofList (trailing root))).slashed.text.toList ++ glob.toList := by
  have stops := head?_join relative root
  rw [trailing, toList_join relative,
    List.dropWhile_append_of_pos (by simpa using fun c => eq_slash_of_mem_leading),
    (cut_of_head? stops).2]

/-- A path that is joined to a pattern puts its components in front of those of the pattern. -/
theorem components_join (root : Path) : components (trailing (root.join ⟨glob⟩)) =
    components (trailing root) ++ components glob.toList := by
  rw [trailing_join relative, components_slashed, String.toList_ofList]

end

theorem leading_eq_nil_iff : leading root = [] ↔ root.isAbsolute = false := by
  rw [leading, isAbsolute]
  cases root.text.toList with
  | nil => simp
  | cons c rest => simp [List.takeWhile_cons]

theorem origin_ne_empty (path : Path) : (origin path).text ≠ "" := by
  rw [origin]
  split
  · decide
  · rename_i some
    simpa using some

theorem isHere_origin (relative : (origin path).isAbsolute = false) :
    isHere (origin path) = true := by
  rw [origin] at relative ⊢
  split
  · rfl
  · rename_i some
    obtain ⟨rest, leads⟩ := exists_leading_cons some
    simp [isAbsolute, leads] at relative

/-- The directory at hand is written as a point, or not at all. -/
theorem sameWay_origin (root : Path) :
    SameWay (origin root) ⟨String.ofList (leading root)⟩ := by
  rw [origin]
  split
  · rename_i none
    rw [none]
    exact ⟨rfl, rfl⟩
  · exact .refl _

/-- The components of a pattern below a path: those of the path, taken literally, come first. -/
def under (root : Path) (patterns : List Pattern) : List Pattern :=
  (components (trailing root)).map Pattern.ofText ++ patterns

theorem fits_under_iff : Fits (under root patterns) steps ↔
    ∃ behind, steps = components (trailing root) ++ behind ∧ Fits patterns behind :=
  fits_append_iff fun _ => not_mem_of_mem_components

/-! ## Where a pattern leads -/

/-- A path can be expanded if its text is a pattern and all its components are. -/
theorem isOk_expand : (expand tree path.text).isOk = true ↔
    (Pattern.parse path.text).isOk = true ∧
      ∀ component ∈ components (trailing path), (Pattern.parse component).isOk = true := by
  rw [expand_eq, ← isOk_mapM_parse]
  cases Pattern.parse path.text with
  | error error => simp [bind, Except.bind, Except.isOk, Except.toBool]
  | ok pattern =>
      cases (components (trailing path)).mapM Pattern.parse with
      | error error => simp [bind, Except.bind, Except.isOk, Except.toBool]
      | ok patterns => simp [bind, Except.bind, Except.isOk, Except.toBool, pure, Except.pure]

theorem size_joinAll (path : Path) (noSlash : ∀ step ∈ steps, '/' ∉ step.toList) :
    path.text.utf8ByteSize + (steps.filter (· ≠ "")).length ≤
      (path.joinAll steps).text.utf8ByteSize := by
  induction steps generalizing path with
  | nil => exact le_rfl
  | cons step rest ih =>
      obtain ⟨noSlashStep, noSlash⟩ := List.forall_mem_cons.mp noSlash
      have longer := ih (path.join ⟨step⟩) noSlash
      have slashed := size_le_slashed path
      rw [text_join_eq (not_isAbsolute_of_not_mem noSlashStep), String.utf8ByteSize_append]
        at longer
      rw [joinAll_cons]
      by_cases empty : step = ""
      · rw [List.filter_cons_of_neg (by simpa using empty)]
        omega
      · have size : step.utf8ByteSize ≠ 0 := fun zero =>
          empty (String.utf8ByteSize_eq_zero_iff.mp zero)
        rw [List.filter_cons_of_pos (by simpa using empty), List.length_cons]
        omega

/-- The path of a directory is short enough for a search to come to it. -/
theorem effort_lt (noSlash : ∀ step ∈ steps, '/' ∉ step.toList)
    (dir : tree.isDir (path.joinAll steps) = true) :
    effort patterns steps < stepLimit + patterns.length := by
  obtain ⟨_, _, opens⟩ := FileTree.isDir_iff_opens.mp dir
  have short := opens.sound.short
  have size := size_joinAll path noSlash
  rw [effort, stepLimit]
  omega

/-- The components of a path lead where the path does. -/
theorem trims_leading (somewhere : root.text ≠ "") :
    Trims ((Path.mk (String.ofList (leading root))).joinAll (components (trailing root))) root := by
  have whole := leading_append_trailing root
  have text : (Path.mk (String.ofList (leading root))).slashed.text ++
      String.ofList (trailing root) = root.text := by
    have same : (Path.mk (String.ofList (leading root))).slashed =
        ⟨String.ofList (leading root)⟩ := by
      rcases leading_cases root with none | ⟨front, last⟩
      · exact slashed_of_ended (.inl (by rw [none, String.ofList_nil]))
      · exact slashed_of_ended (.inr (by simp [last]))
    rw [same, ← String.toList_inj, ← whole]
    simp
  have apart : (Path.mk (String.ofList (leading root))).text ≠ "" ∨
      (trailing root ≠ [] ∧ (trailing root).head? ≠ some '/') := by
    by_cases none : leading root = []
    · refine .inr ⟨fun nothing => somewhere ?_, head?_trailing root⟩
      rwa [none, nothing, List.append_nil, eq_comm, String.toList_eq_nil_iff] at whole
    · exact .inl (by simpa using none)
  have trims := trims_joinAll_components apart
  rwa [text] at trims

section
variable {search : Search} (somewhere : root.text ≠ "") (fits : Fits patterns steps)
variable (dir : search.tree.isDir (root.joinAll steps) = true)
include somewhere fits dir

/-- From the root a search leads through the components of a path, and then on. -/
theorem comesTo_of_absolute (absolute : root.isAbsolute = true) :
    search.ComesTo (stepLimit + (under root patterns).length) (under root patterns) (origin root)
      (root.joinAll steps) := by
  have leads : leading root ≠ [] := by
    rw [Ne, leading_eq_nil_iff, absolute]
    exact Bool.noConfusion
  have start : origin root = ⟨String.ofList (leading root)⟩ := if_neg leads
  have startSomewhere : (Path.mk (String.ofList (leading root))).text ≠ "" := by
    simpa using leads
  have notHere : isHere (Path.mk (String.ofList (leading root))) ≠ true := by
    intro here
    obtain ⟨rest, some⟩ := exists_leading_cons leads
    have relative := not_isAbsolute_of_isHere here
    simp [isAbsolute, some] at relative
  have trims := (trims_leading somewhere).joinAll fits.noSlash
  rw [← joinAll_append] at trims
  have all : Fits (under root patterns) (components (trailing root) ++ steps) :=
    fits_under_iff.mpr ⟨steps, rfl, fits⟩
  have there := FileTree.isDir_of_trims trims (text_joinAll_ne_empty all.noSlash startSomewhere) dir
  rw [start]
  exact (comesTo_of_fits search _ _ _ _ _ all
    ⟨.refl _, startSomewhere, fun here => absurd here notHere⟩ there
    (effort_lt all.noSlash there)).trans trims

/-- From the directory at hand a search leads through the components of a path, and then on. -/
theorem comesTo_of_relative (relative : root.isAbsolute = false)
    (leaves : ¬ Stalls (components (trailing root) ++ steps)) :
    search.ComesTo (stepLimit + (under root patterns).length) (under root patterns) (origin root)
      (root.joinAll steps) := by
  have leads : leading root = [] := leading_eq_nil_iff.mpr relative
  have start : origin root = ⟨"."⟩ := if_pos leads
  have trims := (trims_leading somewhere).joinAll fits.noSlash
  have nonempty : components (trailing root) ≠ [] := by
    have whole := leading_append_trailing root
    refine components_ne_nil fun nothing => somewhere ?_
    rwa [leads, nothing, List.append_nil, eq_comm, String.toList_eq_nil_iff] at whole
  have noSlash : ∀ component ∈ components (trailing root), '/' ∉ component.toList := fun _ =>
    not_mem_of_mem_components
  obtain ⟨first, others, some⟩ := List.exists_cons_of_ne_nil nonempty
  rw [some] at noSlash leaves
  obtain ⟨noSlashFirst, noSlash⟩ := List.forall_mem_cons.mp noSlash
  have named : (Path.mk first).text ≠ "" := by
    rintro rfl
    exact leaves rfl
  have all : Fits (others.map Pattern.ofText ++ patterns) (others ++ steps) :=
    (fits_append_iff noSlash).mpr ⟨steps, rfl, fits⟩
  rw [leads, some, joinAll_cons, String.ofList_nil,
    join_of_nowhere rfl (not_isAbsolute_of_not_mem noSlashFirst), ← joinAll_append] at trims
  have there := FileTree.isDir_of_trims trims (text_joinAll_ne_empty all.noSlash named) dir
  rw [start, under, some]
  exact (comesTo_from_here noSlashFirst leaves all there (effort_lt all.noSlash there)).trans trims

end

section
variable (literal : Literal root.text.toList) (somewhere : root.text ≠ "")
variable (relative : (Path.mk glob).isAbsolute = false)
include literal somewhere relative

theorem isOk_parse_join :
    (Pattern.parse (root.join ⟨glob⟩).text).isOk = (Pattern.parse glob).isOk := by
  obtain ⟨directory, ended⟩ := root.slashed_cases.resolve_left (slashed_ne_empty somewhere)
  have slashed : Literal root.slashed.text.toList := by
    intro c member
    by_cases slash : c = '/'
    · rw [slash]
      decide
    · exact literal c ((mem_slashed_iff slash root).mp member)
  rw [text_join_eq relative]
  exact isOk_parse_append slashed (by simp [ended])

omit somewhere relative in
theorem literal_of_mem_trailing {component : String}
    (member : component ∈ components (trailing root)) : Literal component.toList :=
  literal_of_mem_components
    (fun c inside => literal c ((List.dropWhile_sublist _).subset inside)) member

omit somewhere in
theorem mapM_parse_join (parsed : (components glob.toList).mapM Pattern.parse = .ok patterns) :
    (components (trailing (root.join ⟨glob⟩))).mapM Pattern.parse =
      .ok (under root patterns) := by
  rw [components_join relative, List.mapM_append,
    mapM_parse_of_literal fun _ => literal_of_mem_trailing literal, parsed]
  rfl

end

/-- Whether some paths are those of the directories, and maybe of files, to which steps lead from a
path that components stand for.  Behind a relative path no empty step is made as long as the steps,
with those in front, stay at the directory at hand. -/
structure Expands (tree : FileTree) (base : Path) (front : List String) (patterns : List Pattern)
    (paths : List Path) : Prop where
  sound : ∀ path ∈ paths, ∃ steps, Fits patterns steps ∧
    (base.isAbsolute = false → ¬ Stalls (front ++ steps)) ∧ SameWay path (base.joinAll steps)
  complete : ∀ steps, Fits patterns steps → (base.isAbsolute = false → ¬ Stalls (front ++ steps)) →
    tree.isDir (base.joinAll steps) = true →
    ∃ path ∈ paths, tree.isDir path = true ∧ SameWay path (base.joinAll steps) ∧
      tree.sameNode path (base.joinAll steps) = true

/-- Whether some paths are those of the directories to which steps lead from a path that components
stand for, each in one spelling. -/
structure ExpandsToDirs (tree : FileTree) (base : Path) (front : List String)
    (patterns : List Pattern) (paths : List Path) : Prop
    extends Expands tree base front patterns paths where
  isDir : ∀ path ∈ paths, tree.isDir path = true

theorem Expands.filter {front : List String} (expands : Expands tree path front patterns paths) :
    ExpandsToDirs tree path front patterns (paths.filter tree.isDir) := by
  refine ⟨⟨?_, ?_⟩, fun found member => (List.mem_filter.mp member).2⟩
  · exact fun found member => expands.sound found (List.mem_of_mem_filter member)
  · intro steps fits leaves dir
    obtain ⟨found, member, there, result⟩ := expands.complete steps fits leaves dir
    exact ⟨found, List.mem_filter.mpr ⟨member, there⟩, there, result⟩

theorem exists_search (parsed : (components (trailing path)).mapM Pattern.parse = .ok patterns)
    (nonempty : patterns ≠ []) (expanded : expand tree path.text = .ok paths) :
    ∃ search : Search, search.tree = tree ∧
      paths = search.from (stepLimit + patterns.length) patterns (origin path) := by
  rw [expand_eq] at expanded
  cases read : Pattern.parse path.text with
  | error error =>
      rw [read] at expanded
      cases expanded
  | ok pattern =>
      simp only [read, parsed, bind, Except.bind, pure, Except.pure, nonempty, if_false] at expanded
      cases expanded
      exact ⟨_, rfl, rfl⟩

theorem Search.ComesTo.exists_same {search : Search} {fuel : Nat} {long : Path}
    (comes : search.ComesTo fuel patterns path long) (dir : search.tree.isDir long = true) :
    ∃ found ∈ search.from fuel patterns path, search.tree.isDir found = true ∧
      SameWay found long ∧ search.tree.sameNode found long = true := by
  obtain ⟨found, member, trims, somewhere⟩ := comes
  have there := FileTree.isDir_of_trims trims somewhere dir
  exact ⟨found, member, there, trims.sameWay, FileTree.sameNode_of_sameWay trims.sameWay there dir⟩

/-- A pattern stands for what its components lead to from where its text begins. -/
theorem expands_of_expand (plain : tree.hasPlainNames = true)
    (parsed : (components (trailing path)).mapM Pattern.parse = .ok patterns)
    (nonempty : patterns ≠ []) (expanded : expand tree path.text = .ok paths) :
    Expands tree (origin path) [] patterns paths := by
  obtain ⟨search, rfl, rfl⟩ := exists_search parsed nonempty expanded
  constructor
  · intro found member
    obtain ⟨steps, fits, leaves, same⟩ :=
      (finding plain _ _ (isComponent_of_components parsed) _).below found member
    exact ⟨steps, fits, fun relative => leaves (isHere_origin relative), same⟩
  · intro steps fits leaves dir
    have ahead : Ahead (origin path) (origin path) steps :=
      ⟨.refl _, origin_ne_empty _, fun here => leaves (not_isAbsolute_of_isHere here)⟩
    exact (comesTo_of_fits search steps _ _ _ _ fits ahead dir
      (effort_lt fits.noSlash dir)).exists_same dir

/-- Behind a literal path, a pattern stands for what its components lead to from the path. -/
theorem expands_below (plain : tree.hasPlainNames = true) (literal : Literal root.text.toList)
    (somewhere : root.text ≠ "") (relative : (Path.mk glob).isAbsolute = false)
    (parsed : (components glob.toList).mapM Pattern.parse = .ok patterns)
    (nonempty : patterns ≠ []) (expanded : expand tree (root.join ⟨glob⟩).text = .ok paths) :
    Expands tree root (components (trailing root)) patterns paths := by
  have all := mapM_parse_join literal relative parsed
  have start : origin (root.join ⟨glob⟩) = origin root := by
    rw [origin, origin, leading_join relative]
  obtain ⟨search, rfl, found⟩ :=
    exists_search all (List.append_ne_nil_of_right_ne_nil _ nonempty) expanded
  rw [start] at found
  subst found
  constructor
  · intro path member
    obtain ⟨steps, whole, leaves, same⟩ :=
      (finding plain _ _ (isComponent_of_components all) (origin root)).below path member
    obtain ⟨behind, rfl, fits⟩ := fits_under_iff.mp whole
    refine ⟨behind, fits, ?_, same.trans ?_⟩
    · intro rootRelative
      refine leaves ?_
      rw [origin, if_pos (leading_eq_nil_iff.mpr rootRelative)]
      rfl
    · rw [joinAll_append]
      refine SameWay.joinAll (SameWay.trans ?_ (trims_leading somewhere).sameWay) fits.noSlash
      exact (sameWay_origin root).joinAll fun _ => not_mem_of_mem_components
  · intro steps fits leaves dir
    cases absolute : root.isAbsolute with
    | true => exact (comesTo_of_absolute somewhere fits dir absolute).exists_same dir
    | false =>
        exact (comesTo_of_relative somewhere fits dir absolute (leaves absolute)).exists_same dir

end Phrasebook.Glob
