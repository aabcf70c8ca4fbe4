import Phrasebook.Proofs.Source.Expressions
import Phrasebook.Source.Grammar

/-!
# Statements and modules in order

A loop with its condition at the end is turned: the condition is visited first.  From the statements
the order of a whole text follows, by induction on the depth of its rules.
-/

namespace Phrasebook.Source.Grammar

open Recogniser

variable {rules : Rules} [Rules.Sound rules] {high : Nat}

@[simp] theorem core_statementOf (children : List Node) :
    (statementOf children).core = Node.coreOfAll children := by
  simp [statementOf]

instance : Reads (freeExpression rules) fun node => [node] := by
  unfold freeExpression
  infer_instance

instance : Reads (condition rules) fun node => [node] :=
  .of_goes fun _ => .on fun _ => .read fun _ => .on fun _ => .done rfl

instance : Reads jump fun node => [node] :=
  .of_goes fun _ => .on fun _ => .branch (.done (by simp)) (.on fun _ => .on fun _ => .on fun _ =>
    .on fun _ => .done (by simp))

instance : Reads (doStatement rules) fun node => [node] :=
  .of_goes fun _ => .read fun _ => .on fun _ => .read fun _ => .on fun _ => goes_turned rfl

instance : Reads (ifStatement rules) fun node => [node] := by
  refine .of_goes fun high => .read fun test => .read fun whenTrue => .on fun _ => ?_
  extract_lets after
  have joined : ∀ whenFalse, Goes high (test :: whenTrue :: whenFalse) (after whenFalse)
      fun node => [node] :=
    fun whenFalse => .done (by simp)
  exact .branch (.read fun other => joined [other]) (joined [])

instance : Reads (caseBody rules) id := by
  refine .of_steps List.reverse rfl fun _ read => .on fun _ => .on fun _ => .on fun _ => ?_
  exact .branch (.done rfl) (.read fun statement => .done (by simp))

instance : Reads (switchStatement rules) fun node => [node] := by
  refine .of_goes fun _ => .read fun value => .on fun _ => .until (fun high read => ?_)
    fun cases => .done (by simp)
  refine .on fun _ => .branch ?_ ?_
  · exact .read fun test => .on fun _ => .read fun body => .done (by simp)
  · exact .on fun _ => .on fun _ => .read fun body => .done (by simp)

instance : Reads (returnStatement rules) fun node => [node] :=
  .of_goes fun _ => .on fun _ => .branch (.done (by simp)) (.read fun value => .on fun _ =>
    .done (by simp))

instance : Reads (throwStatement rules) fun node => [node] :=
  .of_goes fun _ => .on fun _ => .on fun _ => .read fun value => .on fun _ => .done (by simp)

instance : Reads (catchClause rules) fun node => [node] := by
  refine .of_goes fun high => .on fun _ => ?_
  extract_lets after
  have joined : ∀ parameter, Goes high parameter (after parameter) fun node => [node] :=
    fun parameter => .read fun body => .done (by simp)
  refine .branch (.read fun pattern => .on fun type => .on fun _ => ?_) (joined [])
  exact .change (by simp) (joined [pattern, typeOf type])

instance : Reads (handlers rules) id := by
  refine .of_goes fun high => .on fun _ => ?_
  extract_lets after
  have joined : ∀ catching, Goes high catching (after catching) id := by
    refine fun catching => .on fun _ => ?_
    extract_lets withFinal
    have joined : ∀ final, Goes high (catching ++ final) (withFinal final) id :=
      fun final => .done rfl
    exact .branch (.read fun final => joined [final]) (.change (by simp) (joined []))
  exact .branch (.read fun clause => joined [clause]) (joined [])

theorem goes_countingHead (first : List Node) :
    Goes high first (countingHead rules first) id := by
  refine .on fun _ => ?_
  extract_lets after
  have joined : ∀ test, Goes high (first ++ test) (after test) id := by
    refine fun test => .on fun _ => ?_
    extract_lets withUpdate
    have joined : ∀ update, Goes high (first ++ test ++ update) (withUpdate update) id :=
      fun update => .done rfl
    exact .branch (.change (by simp) (joined [])) (.read fun update => joined [update])
  exact .branch (.change (by simp) (joined [])) (.read fun test => .on fun _ => joined [test])

theorem goes_itemsHead (needsOf : Bool) (target : Node) :
    Goes high [target] (itemsHead rules needsOf target) id :=
  .on fun _ => .branch (.read fun _ => .done rfl) (.on fun _ => .on fun _ =>
    .read fun _ => .done rfl)

instance : Moves startsUsing := by
  unfold startsUsing
  infer_instance

instance (needsOf : Bool) (word : VariableWord) : Reads (declaringHead rules needsOf word) id := by
  refine .of_goes fun _ => .read fun declared => ?_
  refine .change (by simp) (.on fun _ => .branch (goes_itemsHead needsOf (statementOf declared)) ?_)
  exact .on fun _ => .on fun _ => goes_countingHead _

instance : Moves startsUsingOf := by
  unfold startsUsingOf
  infer_instance

instance (needsOf : Bool) : Reads (loopHead rules needsOf) id := by
  refine .of_goes fun _ => .on fun word => ?_
  cases word with
  | some word => exact .on fun _ => .last fun _ => rfl
  | none =>
      refine .on fun _ => .branch (.on fun _ => .on fun _ => .last fun _ => rfl) (.on fun _ => ?_)
      refine .branch (.on fun _ => .on fun _ => goes_countingHead []) (.read fun first => ?_)
      refine .on fun _ => .branch ?_ (.on fun _ => .on fun _ => goes_countingHead [first])
      extract_lets target
      have fewer : ∀ node, target = some node → node.core.Sublist first.core := by
        intro node found
        unfold target at found
        split at found
        · exact Node.core_asPattern _ _ found
        · obtain rfl := Option.some.inj found
          exact .refl _
      clear_value target
      cases target with
      | none => exact .refuse
      | some node =>
          exact .forget (by simpa using fewer node rfl) (goes_itemsHead needsOf node)

instance : Reads (forStatement rules) fun node => [node] :=
  .of_goes fun _ => .on fun _ => .on fun _ => .read fun head => .on fun _ => .read fun body =>
    .done (by simp)

instance (name : String) : Reads (afterIdentifier? rules name) Option.toList := by
  refine .of_goes fun _ => .on fun _ => .branch (.read fun _ => .done rfl) ?_
  split
  · exact .last fun _ => rfl
  · exact .on fun _ => .branch (.read fun _ => .done rfl) (.done rfl)
  · exact .last fun _ => rfl

instance : Reads (expressionStatement rules) fun node => [node] := by
  refine .of_goes fun high => .read fun node => ?_
  extract_lets after
  have joined : ∀ declared, Goes high (declared.elim [node] fun node => [node]) (after declared)
      fun node => [node] := by
    intro declared
    cases declared with
    | some statement => exact .done rfl
    | none =>
        refine .on fun _ => .branch (.done (by simp)) (.on fun _ => .on fun _ => ?_)
        exact (goes_operatorsAfter node).bind fun node => .done (by simp)
  split
  · refine .read fun declared => .change ?_ (joined declared)
    cases declared <;> simp
  · exact joined none

instance : Reads (usingStatement rules) fun node => [node] :=
  .of_goes fun _ => .read fun declared => .done (by simp)

instance : Reads (awaitStatement.awaitOperand rules) fun node => [node] := by
  refine .of_goes fun _ => .within _ (.read fun operand => ?_)
  exact (goes_operatorsAfter operand).bind fun node => .on fun _ => .done (by simp)

instance : Reads (awaitStatement rules) fun node => [node] := by
  refine .of_goes fun _ => .on fun _ => .branch ?_ (.last fun _ => rfl)
  refine (Goes.attempt (.on fun _ => .on fun _ => .on fun _ => .on fun _ =>
    .last fun _ => rfl)).bind fun declared => ?_
  cases declared with
  | some statement => exact .done rfl
  | none => exact .last fun _ => rfl

instance : Reads (importStatement rules) fun node => [node] :=
  .of_goes fun _ => .on fun _ => .on fun _ => .read fun node => .on fun _ => .done (by simp)

instance (name : String) : Reads (keywordStatement? rules name) Option.toList := by
  refine .of_goes fun _ => ?_
  unfold keywordStatement?
  split
  · exact .on fun _ => .read fun _ => .done rfl
  · exact .on fun _ => .read fun _ => .done rfl
  · exact .on fun _ => .on fun _ => .done (by simp)
  · exact .on fun _ => .read fun _ => .done rfl
  · exact .on fun _ => .read fun _ => .done rfl
  · exact .read fun _ => .done rfl
  · exact .read fun _ => .done rfl
  · exact .on fun _ => .read fun _ => .done rfl
  · exact .on fun _ => .read fun _ => .done rfl
  · exact .on fun _ => .read fun _ => .done rfl
  · exact .on fun _ => .read fun _ => .done rfl
  · exact .on fun _ => .done (by simp)
  · exact .on fun _ => .done (by simp)
  · exact .on fun _ => .read fun body => .read fun others => .done (by simp)
  · exact .on fun _ => .read fun object => .read fun body => .done (by simp)
  · exact .on fun _ => .read fun test => .read fun body => .done (by simp)
  · exact .on fun _ => .read fun _ => .done rfl
  · exact .read fun _ => .done rfl
  · exact .refuse
  · exact .on fun _ => .read fun _ => .done rfl
  · exact .on fun _ => .read fun _ => .done rfl
  · exact .done rfl

instance : Reads (keywordHere? rules) Option.toList := by
  refine .of_goes fun _ => .on fun token => ?_
  split
  · exact .last fun _ => rfl
  · exact .done rfl

instance (mayDeclare : Bool) : Reads (scopedDeclaration? rules mayDeclare) Option.toList := by
  refine .of_goes fun _ => .branch (.done rfl) (.on fun _ => .branch (.read fun _ => .done rfl) ?_)
  refine .on fun _ => .branch (.on fun _ => .read fun _ => .done rfl) (.on fun word => ?_)
  cases word with
  | some word => exact .on fun _ => .read fun _ => .done rfl
  | none => exact .done rfl

instance (mayDeclare : Bool) : Reads (statement rules mayDeclare) fun node => [node] := by
  refine .of_goes fun _ => .on fun _ => .on fun _ => .branch ?_ (.read fun declared => ?_)
  · exact .on fun _ => .on fun _ => .last fun _ => rfl
  · cases declared with
    | some node => exact .done rfl
    | none =>
        refine .read fun found => ?_
        cases found with
        | some node => exact .done rfl
        | none =>
            refine .on fun _ => .branch (.last fun _ => rfl) (.on fun _ => ?_)
            refine .branch (.done (by simp)) (.on fun _ => .branch ?_ (.last fun _ => rfl))
            exact .on fun _ => .last fun _ => rfl

/-! ## Modules -/

instance : Moves moduleName := by
  refine .bind fun token => ?_
  split <;> infer_instance

instance : Moves moduleSource := by
  refine .bind fun token => ?_
  split <;> infer_instance

instance : Moves atName := by
  unfold atName
  infer_instance

instance : Reads (importAttributes rules) id :=
  .of_goes fun _ => .on fun _ => .on fun _ => .branch
    (.on fun _ => .on fun _ => .read fun _ => .done rfl) (.done rfl)

instance : Reads (fromClause rules) fun node => [node] :=
  .of_goes fun _ => .on fun _ => .on fun _ => .read fun attributes => .on fun _ => .done (by simp)

instance (binds : Bool) : Moves (typeEntryTail binds) := by
  refine .bind fun name => ?_
  split
  · refine .bind fun _ => ?_
    split
    · infer_instance
    · infer_instance
  · infer_instance

instance : Reads importEntry fun node => [node] := by
  refine .of_goes fun high => .on fun name => .on fun _ => ?_
  extract_lets after
  have joined : ∀ name, Goes high [] (after name) fun node => [node] := by
    intro name
    cases name with
    | none => exact .done (by simp)
    | some name =>
        refine .on fun _ => .branch ?_ (.on fun _ => .done (by simp))
        exact .on fun _ => .on fun _ => .on fun _ => .done (by simp)
  exact .branch (.on joined) (joined (some name))

instance : Moves exportEntry := by
  refine .bind fun name => .bind fun _ => ?_
  extract_lets after
  have joined : ∀ name, Moves (after name) := by
    intro name
    cases name <;> exact inferInstance
  clear_value after
  infer_instance

instance : Reads importEquals fun node => [node] := by
  refine .of_goes fun high => .on fun _ => .on fun _ => .on fun _ => ?_
  extract_lets after
  have joined : Goes high [] (after ()) fun node => [node] := .on fun _ => .done (by simp)
  refine .branch (.on fun _ => .on fun _ => .on fun _ => .on fun _ => joined) ?_
  exact .on fun _ => .on fun _ => joined

instance (phase : ImportPhase) : Reads (importNames rules phase) fun node => [node] := by
  refine .of_goes fun high => .on fun _ => ?_
  extract_lets after
  have joined : Goes high [] (after ()) fun node => [node] := .last fun _ => rfl
  refine .branch (.on fun _ => .on fun _ => .on fun _ => .on fun _ => .on fun _ => joined) ?_
  exact .on fun _ => .branch (.on fun _ => .on fun _ => joined) joined

instance (phase : ImportPhase) : Reads (importAfterDefault rules phase) fun node => [node] := by
  refine .of_goes fun _ => .on fun _ => .branch (.last fun _ => rfl) (.on fun _ => ?_)
  exact .branch (.last fun _ => rfl) (.on fun _ => .last fun _ => rfl)

instance (word : String) : Reads (importAfterWord rules word) fun node => [node] := by
  refine .of_goes fun _ => .on fun _ => .on fun _ => .on fun _ => .on fun _ => ?_
  refine .branch (.last fun _ => rfl) (.on fun _ => .branch (.last fun _ => rfl) ?_)
  refine .branch (.on fun _ => .last fun _ => rfl) (.branch ?_ (.last fun _ => rfl))
  exact .on fun _ => .last fun _ => rfl

instance : Reads (importDeclaration rules) fun node => [node] := by
  refine .of_goes fun _ => .on fun token => ?_
  split
  · exact .on fun _ => .read fun attributes => .on fun _ => .done (by simp)
  · exact .branch (.on fun _ => .last fun _ => rfl) (.last fun _ => rfl)

instance : Reads (defaultExport rules) fun node => [node] := by
  refine .of_goes fun high => .on fun _ => .on fun _ => .branch (.on fun _ => .last fun _ => rfl) ?_
  refine .on fun _ => ?_
  extract_lets after
  have joined : Goes high [] (after ()) fun node => [node] := by
    refine .on fun _ => .branch (.on fun _ => .last fun _ => rfl) (.on fun _ => ?_)
    refine .branch (.last fun _ => rfl) (.on fun _ => .branch ?_ (.on fun _ => .branch ?_ ?_))
    · exact .on fun _ => .last fun _ => rfl
    · exact .last fun _ => rfl
    · exact .read fun node => .on fun _ => .done (by simp)
  exact .branch (.on fun _ => joined) joined

instance : Reads (exportNames rules) fun node => [node] := by
  refine .of_goes fun high => .on fun _ => .on fun _ => .branch (.on fun _ => ?_) ?_
  · exact .branch (.on fun _ => .on fun _ => .last fun _ => rfl) (.last fun _ => rfl)
  · refine .on fun _ => .on fun _ => .on fun _ => .branch (.last fun _ => rfl) ?_
    exact .on fun _ => .done (by simp)

instance : Reads (exportDeclaration rules) fun node => [node] := by
  refine .of_goes fun _ => .on fun _ => .on fun _ => .branch (.last fun _ => rfl) (.on fun _ => ?_)
  refine .branch (.on fun _ => .last fun _ => rfl) (.on fun _ => .branch (.last fun _ => rfl) ?_)
  refine .on fun _ => .branch (.on fun _ => .on fun _ => .last fun _ => rfl) (.on fun word => ?_)
  cases word with
  | some word => exact .on fun _ => .last fun _ => rfl
  | none => exact .last fun _ => rfl

instance : Reads (plainExport rules) fun node => [node] := by
  refine .of_goes fun high => .on fun _ => .branch (.on fun _ => .on fun _ => ?_) (.on fun _ => ?_)
  · exact .branch (.on fun _ => .on fun _ => .last fun _ => rfl) (.on fun _ => .last fun _ => rfl)
  · refine .branch (.read fun node => .on fun _ => .done (by simp)) (.on fun _ => .branch ?_ ?_)
    · exact .on fun _ => .on fun _ => .on fun _ => .done (by simp)
    · refine .on fun _ => .branch (.last fun _ => rfl) (.on fun _ => ?_)
      exact .branch (.last fun _ => rfl) (.last fun _ => rfl)

instance : Reads (ambientHere? rules) Option.toList :=
  .of_goes fun _ => .on fun _ => .branch (.last fun _ => rfl) (.done rfl)

instance : Reads (typeDeclarationHere? rules) Option.toList := by
  refine .of_goes fun high => .on fun token => ?_
  split
  · have attempted : ∀ name, Goes high [] (do
        match ← typeDeclaration? rules name true with
        | some node => return node
        | none => refuse) fun node => [node] := by
      refine fun name => .read fun found => ?_
      cases found with
      | some node => exact .done rfl
      | none => exact .refuse
    refine (attempted _).attempt.as fun found => ?_
    cases found <;> rfl
  · exact .done rfl

instance : Reads (exportStatement rules) fun node => [node] := by
  refine .of_goes fun _ => .read fun ambient => ?_
  cases ambient with
  | some node => exact .done rfl
  | none =>
      refine .read fun declared => ?_
      cases declared with
      | some node => exact .done rfl
      | none => exact .last fun _ => rfl

instance : Reads (moduleItem rules) fun node => [node] := by
  refine .of_goes fun _ => .on fun _ => .on fun _ => .branch (.on fun _ => .last fun _ => rfl) ?_
  exact .on fun _ => .branch (.last fun _ => rfl) (.last fun _ => rfl)

instance : Reads (module rules) fun node => [node] := by
  refine .of_goes fun _ => .gather List.reverse rfl (fun _ read => ?_) fun _ => .done (by simp)
  exact .on fun _ => .branch (.done rfl) (.read fun item => .done (by simp))

instance : Rules.none.Sound where
  type := inferInstanceAs (Moves refuse)
  expression := .of_goes fun _ => .refuse
  assignment := .of_goes fun _ => .refuse
  unary := .of_goes fun _ => .refuse
  leftHand := .of_goes fun _ => .refuse
  statement _ := .of_goes fun _ => .refuse
  moduleItem := .of_goes fun _ => .refuse
  binding _ := .of_goes fun _ => .refuse
  parameters := .of_goes fun _ => .refuse
  classTail _ := .of_goes fun _ => .refuse
  element := .of_goes fun _ => .refuse

instance : (rulesOver rules).Sound where
  type := inferInstanceAs (Moves (type rules))
  expression := inferInstanceAs (Reads (expression rules) fun node => [node])
  assignment := inferInstanceAs (Reads (assignment rules) fun node => [node])
  unary := inferInstanceAs (Reads (unary rules) fun node => [node])
  leftHand := inferInstanceAs (Reads (leftHand rules) fun node => [node])
  statement mayDeclare := inferInstanceAs (Reads (statement rules mayDeclare) fun node => [node])
  moduleItem := inferInstanceAs (Reads (moduleItem rules) fun node => [node])
  binding forbidLet := inferInstanceAs (Reads (binding rules forbidLet) fun node => [node])
  parameters := inferInstanceAs (Reads (parameters rules) id)
  classTail needsName := inferInstanceAs (Reads (classTail rules needsName) fun node => [node])
  element := inferInstanceAs (Reads (elementTail rules) fun node => [node])

theorem sound_rulesOfDepth (depth : Nat) : (rulesOfDepth depth).Sound := by
  induction depth with
  | zero => exact inferInstanceAs Rules.none.Sound
  | succ depth ih => exact inferInstanceAs (rulesOver (rulesOfDepth depth)).Sound

theorem sound_start (markup : Bool) (text : List Char) : (Cursor.start markup text).Sound := by
  obtain ⟨sound, behind⟩ := Lexeme.sound_next text.length true (Lexeme.skipInterpreterLine text)
  exact ⟨sound, behind⟩

theorem left_start (markup : Bool) (text : List Char) :
    (Cursor.start markup text).left ≤ text.length := by
  obtain ⟨_, behind⟩ := Lexeme.sound_next text.length true (Lexeme.skipInterpreterLine text)
  exact Nat.le_trans behind (Lexeme.length_skipInterpreterLine text)

theorem inOrder_parse {markup : Bool} {text : List Char} {tree : Node}
    (parsed : parse markup text = some tree) : InOrder text.length 0 [tree] := by
  have sound := sound_rulesOfDepth (8 * text.length + 100)
  have reads : Reads (module (rulesOfDepth (8 * text.length + 100))) fun node => [node] :=
    inferInstance
  have landed := reads.lands _ (sound_start markup text)
  unfold parse at parsed
  split at parsed
  · rename_i read
    obtain rfl := Option.some.inj parsed
    rw [read] at landed
    exact landed.2.2.widen (left_start markup text) (Nat.zero_le _)
  · cases parsed

end Phrasebook.Source.Grammar
