import Phrasebook.Glob.Expansion
import Phrasebook.Proofs.FileTree.Spelling

/-!
# How the results of a pattern are spelled

A search for the paths that a pattern stands for starts at the directory at hand, which it does not
write in front of the names it comes to.  So its results begin with no point, even if the pattern
does, unless they are that directory itself or lead upwards.
-/

namespace Phrasebook.Glob

open Phrasebook.Path

variable {search : Search} {path found : Path} {name : String} {pattern : Pattern}
variable {patterns rest : List Pattern} {tokens reversed : List Token} {text : List Char} {c : Char}

theorem subset_of_untilBracket {inside after : List Char}
    (closed : untilBracket text = some (inside, after)) : after ⊆ text := by
  induction text generalizing inside with
  | nil => cases closed
  | cons first rest ih =>
      rw [untilBracket] at closed
      split at closed
      · cases closed
        exact List.subset_cons_self ..
      · obtain ⟨⟨within, behind⟩, closes, equal⟩ := Option.map_eq_some_iff.mp closed
        cases equal
        exact List.Subset.trans (ih closes) (List.subset_cons_self ..)

/-- A bracketed piece stands for no character of its own and for no components, and leaves a part of
the text. -/
theorem bracketed?_spec {token : Token} {after : List Char}
    (read : bracketed? text = some (token, after)) :
    (∀ c, token ≠ .char c) ∧ token ≠ .anyComponents ∧ after ⊆ text := by
  unfold bracketed? at read
  split at read
  · obtain ⟨⟨inside, behind⟩, closes, equal⟩ := Option.map_eq_some_iff.mp read
    cases equal
    refine ⟨nofun, nofun, List.Subset.trans (subset_of_untilBracket closes) ?_⟩
    exact List.Subset.trans (List.subset_cons_self ..) (List.subset_cons_self ..)
  · cases read
  · obtain ⟨⟨inside, behind⟩, closes, equal⟩ := Option.map_eq_some_iff.mp read
    cases equal
    exact ⟨nofun, nofun,
      List.Subset.trans (subset_of_untilBracket closes) (List.subset_cons_self ..)⟩
  · cases read

theorem mem_addAnyComponents (member : .char c ∈ addAnyComponents reversed) :
    .char c ∈ reversed := by
  unfold addAnyComponents at member
  split at member
  · exact member
  · simpa using member

/-- Reading the beginning of a text adds a piece of its own, or one for components where a component
begins, and leaves a part of the text. -/
theorem exists_of_tokenize_cons {fuel position : Nat} {before : Option Char} {first : Char}
    (read : tokenize (fuel + 1) position before reversed (first :: text) = .ok tokens) :
    ∃ position last pieces rest, tokenize fuel position (some last) pieces rest = .ok tokens ∧
      rest ⊆ text ∧
      ((∃ token, pieces = token :: reversed ∧ token ≠ .anyComponents ∧
          (∀ c, token = .char c → c = first) ∧ (last = first ∨ last = ']')) ∨
        (before = none ∨ before = some '/') ∧ pieces = addAnyComponents reversed ∧
          (rest = [] ∨ '/' ∈ text)) := by
  have dropped : text.dropWhile (· == '*') ⊆ text := (List.dropWhile_sublist _).subset
  rw [tokenize] at read
  dsimp only at read
  split at read
  · exact ⟨_, _, _, _, read, List.Subset.refl _, .inl ⟨_, rfl, nofun, nofun, .inl rfl⟩⟩
  · split at read
    · split at read
      · cases read
      · split at read
        · exact ⟨_, _, _, _, read, dropped, .inl ⟨_, rfl, nofun, nofun, .inl rfl⟩⟩
        · split at read
          · rename_i begins
            split at read
            · exact ⟨_, _, _, _, read, List.nil_subset _, .inr ⟨begins, rfl, .inl rfl⟩⟩
            · rename_i next others equal
              rw [equal] at dropped
              split at read
              · rename_i slash
                exact ⟨_, _, _, _, read, List.Subset.trans (List.subset_cons_self ..) dropped,
                  .inr ⟨begins, rfl, .inr (slash ▸ dropped (List.mem_cons_self ..))⟩⟩
              · cases read
          · cases read
    · split at read
      · split at read
        · rename_i token others bracket
          obtain ⟨noChar, different, inside⟩ := bracketed?_spec bracket
          exact ⟨_, _, _, _, read, inside,
            .inl ⟨_, rfl, different, fun c same => absurd same (noChar c), .inr rfl⟩⟩
        · cases read
      · exact ⟨_, _, _, _, read, List.Subset.refl _,
          .inl ⟨_, rfl, nofun, fun c same => (Token.char.inj same).symm, .inl rfl⟩⟩

/-- The characters that a pattern stands for occur in its text. -/
theorem mem_of_tokenize {fuel position : Nat} {before : Option Char}
    (read : tokenize fuel position before reversed text = .ok tokens) (member : .char c ∈ tokens) :
    .char c ∈ reversed ∨ c ∈ text := by
  induction fuel generalizing position before reversed text with
  | zero =>
      cases read
      exact .inl (List.mem_reverse.mp member)
  | succ fuel ih =>
      cases text with
      | nil =>
          cases read
          exact .inl (List.mem_reverse.mp member)
      | cons first rest =>
          obtain ⟨_, _, pieces, _, onward, inside, added⟩ := exists_of_tokenize_cons read
          have earlier : .char c ∈ pieces → .char c ∈ reversed ∨ c = first := by
            intro member
            rcases added with ⟨token, rfl, _, own, _⟩ | ⟨_, rfl, _⟩
            · rcases List.mem_cons.mp member with same | member
              · exact .inr (own c same.symm)
              · exact .inl member
            · exact .inl (mem_addAnyComponents member)
          rcases ih onward with member | member
          · exact (earlier member).imp_right fun same => List.mem_cons.mpr (.inl same)
          · exact .inr (List.mem_cons_of_mem _ (inside member))

theorem mapM_eq_some_iff {tokens : List Token} {chars : List Char} {read : Token → Option Char}
    (read_iff : ∀ token c, read token = some c ↔ token = .char c) :
    tokens.mapM read = some chars ↔ tokens = chars.map .char := by
  induction tokens generalizing chars with
  | nil => cases chars <;> simp
  | cons token rest ih =>
      simp only [List.mapM_cons, Option.bind_eq_bind, Option.bind_eq_some_iff, Option.pure_def,
        Option.some.injEq, read_iff, ih]
      constructor
      · rintro ⟨c, rfl, others, rfl, rfl⟩
        rfl
      · intro equal
        obtain ⟨c, others, rfl, rfl, rfl⟩ := List.map_eq_cons_iff.mp equal.symm
        exact ⟨c, rfl, others, rfl, rfl⟩

/-- A pattern without wildcards stands for the text of its characters. -/
theorem literal?_eq_some_iff :
    pattern.literal? = some name ↔ pattern.tokens = name.toList.map .char := by
  unfold Pattern.literal?
  rw [Option.map_eq_some_iff]
  refine (exists_congr fun chars => and_congr_left' (mapM_eq_some_iff ?_)).trans ?_
  · intro token c
    cases token <;> simp
  · constructor
    · rintro ⟨chars, equal, rfl⟩
      rwa [String.toList_ofList]
    · intro equal
      exact ⟨name.toList, equal, String.ofList_toList⟩

/-- Whether the names that a pattern stands for without wildcards hold no slash. -/
def Slashless (pattern : Pattern) : Prop :=
  ∀ name, pattern.literal? = some name → '/' ∉ name.toList

theorem slashless_of_parse {component : String} (noSlash : '/' ∉ component.toList)
    (parsed : Pattern.parse component = .ok pattern) : Slashless pattern := by
  intro name literal member
  have read : .char '/' ∈ pattern.tokens := by
    rw [literal?_eq_some_iff.mp literal]
    exact List.mem_map_of_mem member
  unfold Pattern.parse at parsed
  cases tokenized : tokenize (component.length + 1) 0 none [] component.toList with
  | error error =>
      rw [tokenized] at parsed
      cases parsed
  | ok tokens =>
      rw [tokenized] at parsed
      cases parsed
      exact noSlash ((mem_of_tokenize tokenized read).resolve_left (by simp))

theorem not_mem_of_mem_components {component : String} (member : component ∈ components text) :
    '/' ∉ component.toList := by
  obtain ⟨piece, inside, rfl⟩ := List.mem_map.mp member
  rw [String.toList_ofList]
  split at inside
  · exact not_mem_of_mem_split (List.dropLast_subset _ inside)
  · exact not_mem_of_mem_split inside

/-- Each pattern that some texts are stands for one of them. -/
theorem exists_of_mapM_parse {parts : List String}
    (parsed : parts.mapM Pattern.parse = .ok patterns) (member : pattern ∈ patterns) :
    ∃ part ∈ parts, Pattern.parse part = .ok pattern := by
  induction parts generalizing patterns with
  | nil =>
      cases parsed
      cases member
  | cons part parts ih =>
      rw [List.mapM_cons] at parsed
      cases first : Pattern.parse part with
      | error error =>
          rw [first] at parsed
          cases parsed
      | ok found =>
          cases others : parts.mapM Pattern.parse with
          | error error =>
              rw [first, others] at parsed
              cases parsed
          | ok rest =>
              rw [first, others] at parsed
              cases parsed
              rcases List.mem_cons.mp member with rfl | member
              · exact ⟨part, List.mem_cons_self .., first⟩
              · obtain ⟨other, inside, read⟩ := ih others member
                exact ⟨other, List.mem_cons_of_mem _ inside, read⟩

theorem slashless_of_components (parsed : (components text).mapM Pattern.parse = .ok patterns) :
    ∀ pattern ∈ patterns, Slashless pattern := by
  intro pattern member
  obtain ⟨component, inside, read⟩ := exists_of_mapM_parse parsed member
  exact slashless_of_parse (not_mem_of_mem_components inside) read

/-! ## Openings of results -/

/-- Whether a path begins with no point, unless it is the directory at hand or leads upwards. -/
def Unopened (path : Path) : Prop :=
  path.opening = some .here → path.parts = [.here] ∨ .up ∈ path.parts

theorem unopened_of_not_mem (noSlash : '/' ∉ name.toList) : Unopened ⟨name⟩ := by
  intro opened
  rw [opening_of_relative (not_isAbsolute_of_not_mem noSlash), pieces_of_not_mem noSlash] at opened
  by_cases here : name = "."
  · subst here
    exact .inl rfl
  · by_cases empty : name = ""
    · simp [empty] at opened
    · simp [empty, here] at opened

theorem join_of_nowhere (nowhere : path.text = "") (relative : (Path.mk name).isAbsolute = false) :
    path.join ⟨name⟩ = ⟨name⟩ := by
  simp [join, relative, nowhere]

/-- A path that leads upwards still does so with a name behind it. -/
theorem up_mem_join (relative : (Path.mk name).isAbsolute = false)
    (up : .up ∈ path.parts) : .up ∈ (path.join ⟨name⟩).parts := by
  rw [up_mem_parts_iff, names_join relative]
  exact List.mem_append_left _ (up_mem_parts_iff.mp up)

theorem unopened_below (unopened : Unopened path) (noSlash : '/' ∉ name.toList) :
    Unopened (below path name) := by
  have relative := not_isAbsolute_of_not_mem noSlash
  unfold below
  split
  · exact unopened_of_not_mem noSlash
  · rename_i elsewhere
    by_cases nowhere : path.text = ""
    · rw [join_of_nowhere nowhere relative]
      exact unopened_of_not_mem noSlash
    · intro opened
      rw [opening_join relative nowhere] at opened
      rcases unopened opened with here | up
      · simp [isHere, here] at elsewhere
      · exact .inr (up_mem_join relative up)

/-- The names `.` and `..` behind a path lead to the same directory or upwards. -/
theorem unopened_join (unopened : Unopened path) (special : name = "." ∨ name = "..") :
    Unopened (path.join ⟨name⟩) := by
  have noSlash : '/' ∉ name.toList := by
    rcases special with rfl | rfl
    · decide
    · decide
  have relative := not_isAbsolute_of_not_mem noSlash
  by_cases nowhere : path.text = ""
  · rw [join_of_nowhere nowhere relative]
    exact unopened_of_not_mem noSlash
  · intro opened
    have before := opened
    rw [opening_join relative nowhere] at before
    rcases special with rfl | rfl
    · rcases unopened before with here | up
      · refine .inl ?_
        have none : path.names = [] := by
          have parts := path.parts_eq_opening
          rw [here, before] at parts
          simpa using parts
        rw [parts_eq_opening, opened, names_join relative, none]
        rfl
      · exact .inr (up_mem_join relative up)
    · refine .inr (up_mem_parts_iff.mpr ?_)
      rw [names_join relative]
      exact List.mem_append_right _ (by decide)

theorem plain_of_names {tree : FileTree} {names : List String} (plain : tree.hasPlainNames = true)
    (listed : tree.names path = .ok names) (member : name ∈ names) : Plain name.toList := by
  unfold FileTree.names at listed
  split at listed
  · rename_i entries found
    cases listed
    obtain ⟨location, _, there⟩ := FileTree.entry_eq_ok_iff.mp found
    obtain ⟨⟨_, entry⟩, inside, rfl⟩ := List.mem_map.mp member
    have below := Entry.allBelow_of_at? plain there
    exact of_decide_eq_true (Entry.allBelow_of_mem below inside).1
  · cases listed
  · cases listed

/-- What every part of a search makes of the paths that it is given. -/
structure Search.Keeps (search : Search) (fuel : Nat) (patterns : List Pattern) (path : Path) :
    Prop where
  below : ∀ found ∈ search.from fuel patterns path, Unopened found
  child : ∀ found ∈ search.at fuel patterns path, Unopened found
  itself : ∀ found ∈ search.named fuel patterns path, Unopened found

/-- A search with some fuel keeps to paths as it is given them. -/
def Search.Keeping (search : Search) (fuel : Nat) : Prop :=
  ∀ patterns, (∀ pattern ∈ patterns, Slashless pattern) → ∀ path, Unopened path →
    search.Keeps fuel patterns path

namespace Search

variable {search : Search} {fuel : Nat} {pattern : Pattern} {rest : List Pattern}

theorem unopened_of_admits (unopened : Unopened path) :
    ∀ found ∈ if search.admits path then [path] else [], Unopened found := by
  intro found member
  split at member
  · rwa [List.mem_singleton.mp member]
  · cases member

theorem unopened_from (keeping : search.Keeping fuel) (plain : search.tree.hasPlainNames = true)
    (slashless : ∀ other ∈ pattern :: rest, Slashless other) (unopened : Unopened path) :
    ∀ found ∈ search.from (fuel + 1) (pattern :: rest) path, Unopened found := by
  obtain ⟨slashlessFirst, slashlessRest⟩ := List.forall_mem_cons.mp slashless
  rw [Search.from]
  cases literal : pattern.literal? with
  | some name =>
      dsimp only
      split
      · exact (keeping rest slashlessRest _
          (unopened_below unopened (slashlessFirst name literal))).below
      · simp
  | none =>
      dsimp only
      cases listed : search.tree.names path with
      | error error => simp
      | ok names =>
          intro found member
          rcases List.mem_append.mp member with child | around
          · obtain ⟨name, inside, member⟩ := List.mem_flatMap.mp child
            have noSlash := (plain_of_names plain listed inside).noSlash
            exact (keeping _ slashless _ (unopened_below unopened noSlash)).child found member
          · obtain ⟨name, inside, member⟩ := List.mem_flatMap.mp around
            have special : name = "." ∨ name = ".." := by
              have candidate := List.mem_of_mem_filter inside
              split at candidate
              · simpa using candidate
              · cases candidate
            exact (keeping rest slashlessRest _ (unopened_join unopened special)).below found member

theorem unopened_at (keeping : search.Keeping fuel)
    (slashless : ∀ other ∈ pattern :: rest, Slashless other) (unopened : Unopened path) :
    ∀ found ∈ search.at (fuel + 1) (pattern :: rest) path, Unopened found := by
  obtain ⟨slashlessFirst, slashlessRest⟩ := List.forall_mem_cons.mp slashless
  rw [Search.at]
  split
  · have slashlessLater : ∀ other ∈ rest.dropWhile Pattern.isRecursive, Slashless other :=
      fun other member => slashlessRest other ((List.dropWhile_sublist _).subset member)
    have deeper : ∀ found ∈ if search.tree.isDir path then
        search.from fuel (pattern :: rest.dropWhile Pattern.isRecursive) path else [],
        Unopened found := by
      split
      · exact (keeping _ (List.forall_mem_cons.mpr ⟨slashlessFirst, slashlessLater⟩) path
          unopened).below
      · simp
    dsimp only
    split
    · split
      · rename_i isDir
        rw [if_pos isDir] at deeper
        exact List.forall_mem_cons.mpr ⟨unopened, deeper⟩
      · simp
    · intro found member
      rcases List.mem_append.mp member with below | itself
      · exact deeper found below
      · exact (keeping _ slashlessLater path unopened).itself found itself
  · exact (keeping _ slashless path unopened).itself

theorem unopened_named (keeping : search.Keeping fuel)
    (slashless : ∀ other ∈ rest, Slashless other) (unopened : Unopened path) :
    ∀ found ∈ search.named (fuel + 1) (pattern :: rest) path, Unopened found := by
  unfold Search.named
  split
  · split
    · exact unopened_of_admits unopened
    · exact (keeping rest slashless path unopened).below
  · simp

theorem keeps (plain : search.tree.hasPlainNames = true) (fuel : Nat) : search.Keeping fuel := by
  induction fuel with
  | zero =>
      intro patterns _ path _
      exact ⟨by simp [Search.from], by simp [Search.at], by simp [Search.named]⟩
  | succ fuel ih =>
      intro patterns slashless path unopened
      cases patterns with
      | nil =>
          refine ⟨?_, by simp [Search.at], by simp [Search.named]⟩
          rw [Search.from]
          exact unopened_of_admits unopened
      | cons pattern rest =>
          exact ⟨unopened_from ih plain slashless unopened, unopened_at ih slashless unopened,
            unopened_named ih (List.forall_mem_cons.mp slashless).2 unopened⟩

end Search

/-- Unless it is the directory at hand or leads upwards, what a pattern stands for begins with no
point. -/
theorem unopened_of_expand {tree : FileTree} {glob : String} {paths : List Path}
    (plain : tree.hasPlainNames = true) (expanded : expand tree glob = .ok paths)
    (member : found ∈ paths) : Unopened found := by
  unfold expand at expanded
  cases whole : Pattern.parse glob with
  | error error =>
      rw [whole] at expanded
      cases expanded
  | ok _ =>
      rw [whole] at expanded
      simp only [bind, Except.bind] at expanded
      split at expanded
      · cases expanded
      · rename_i patterns parsed
        cases expanded
        split at member
        · cases member
        · refine (Search.keeps plain _ patterns (slashless_of_components parsed) _ ?_).below found
            member
          split
          · exact fun _ => .inl rfl
          · rename_i absolute
            intro opened
            obtain ⟨c, rest, leading⟩ := List.exists_cons_of_ne_nil absolute
            have slash : c = '/' := by
              have inside : c ∈ glob.toList.takeWhile (· == '/') := by simp [leading]
              simpa using List.mem_takeWhile_imp inside
            have root : (Path.mk (String.ofList (glob.toList.takeWhile (· == '/')))).isAbsolute =
                true := by
              simp [isAbsolute, leading, slash]
            rw [opening_of_absolute root] at opened
            cases opened

end Phrasebook.Glob
