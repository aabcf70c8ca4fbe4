import Phrasebook.Proofs.Source.Functions
import Phrasebook.Source.Grammar.Declarations

/-!
# Classes and declarations in order

A class is turned: its members are visited before what it extends.
-/

namespace Phrasebook.Source.Grammar

open Recogniser

variable {rules : Rules} [Rules.Sound rules]

instance : Moves accessModifier? := by
  unfold accessModifier?
  infer_instance

instance : Reads (memberKey rules) fun name => [name.node] :=
  .of_goes fun _ => .on fun _ => .branch (.on fun _ => .done (by simp [PropertyName.node]))
    (.last fun _ => rfl)

instance : Moves startsMethod := by
  unfold startsMethod
  infer_instance

instance (byLine : Bool) : Moves (startsProperty byLine) := by
  unfold startsProperty
  infer_instance

theorem goes_methodTail {high : Nat} (key : PropertyName) (isAsync isGenerator : Bool) :
    Goes high [key.node] (methodTail rules key isAsync isGenerator) fun node => [node] :=
  .read fun function => .done (by simp)

theorem goes_propertyTail {high : Nat} (key : PropertyName) (optional : Bool) :
    Goes high [key.node] (propertyTail rules key optional) fun node => [node] := by
  refine .on fun _ => ?_
  extract_lets after
  have joined : ∀ read, Goes high [key.node] (after read) fun node => [node] :=
    fun _ => .on fun type => .read fun value => .on fun _ => .done (by simp)
  exact .branch (joined ()) (.on fun _ => joined ())

instance : Reads (constructorParameter rules) fun node => [node] := by
  refine .of_goes fun _ => .on fun rest => .branch (.last fun _ => rfl) ?_
  exact .on fun _ => .on fun _ => .on fun _ => .read fun parameter => .on fun _ => .done rfl

theorem goes_constructorTail {high : Nat} (key : PropertyName) :
    Goes high [key.node] (constructorTail rules key) fun node => [node] := by
  refine .on fun _ => .on fun _ =>
    .gather List.reverse rfl (fun high read => ?_) fun parameters => ?_
  · refine .on fun _ => .on fun _ => .branch (.done rfl) ?_
    exact .read fun parameter => .on fun _ => .done (by simp)
  · exact .on fun _ => .on fun _ => .read fun body => .done (by simp)

instance (isRead : Bool) (word : String) :
    Reads (memberNamed? rules isRead word) Option.toList := by
  have named : Node.coreOfAll [(PropertyName.name word).node] = [] := by simp [PropertyName.node]
  refine .of_goes fun high => .branch (.done rfl) (.change named (.on fun method => ?_))
  refine .branch ((goes_methodTail _ _ _).bind fun member => .done rfl) ?_
  refine .on fun _ => .on fun _ => .branch (.on fun optional => ?_) (.done named.symm)
  exact (goes_propertyTail _ _).bind fun member => .done rfl

instance (modifiers : MemberModifiers) : Moves (memberModifiers modifiers) := by
  unfold memberModifiers
  have steps : ∀ modifiers : MemberModifiers, Moves do
    match ← modifier? ["abstract", "readonly", "override", "static"] true with
    | some "abstract" => return Sum.inl { modifiers with isAbstract := true }
    | some "readonly" => return .inl { modifiers with isReadonly := true }
    | some "override" => return .inl { modifiers with isOverride := true }
    | some _ => return .inl { modifiers with isStatic := true }
    | none => return .inr modifiers := by
    intro modifiers
    refine .bind fun modifier => ?_
    split <;> infer_instance
  infer_instance

instance (key : PropertyName) : Reads (prefixedMember rules key) fun node => [node] := by
  refine .of_goes fun _ => .branch ?_ (.read fun key => goes_methodTail _ _ _)
  exact .on fun _ => .on fun _ => .read fun key => .on fun _ => .on fun _ => goes_methodTail _ _ _

instance (modifiers : MemberModifiers) :
    Reads (memberAfterModifiers rules modifiers) fun node => [node] := by
  refine .of_goes fun high => .on fun _ => .branch (.read fun key => goes_methodTail _ _ _) ?_
  refine .on fun _ => ?_
  extract_lets after
  have joined : ∀ key : PropertyName, Goes high [key.node] (after key) fun node => [node] := by
    refine fun key => .on fun optional => .on fun _ => .branch ?_ ?_
    · exact .on fun _ => .branch (goes_constructorTail _) (goes_methodTail _ _ _)
    · refine .on fun _ => .on fun _ => .on fun _ => .on fun _ => ?_
      refine .branch (goes_propertyTail _ _) (.on fun _ => .branch ?_ .refuse)
      exact .forget (Node.coreOfAll_sublist (List.nil_sublist _)) (.last fun _ => rfl)
  exact .branch (.change (by simp [PropertyName.node]) (joined (.name "readonly"))) (.read joined)

instance : Reads (staticBlock rules) fun node => [node] := by
  unfold staticBlock
  infer_instance

instance (isStatic isAccessible : Bool) :
    Reads (memberAfterWords rules isStatic isAccessible) fun node => [node] := by
  refine .of_goes fun _ => .on fun modifiers => .on fun _ => .on fun _ => ?_
  refine .branch (.last fun _ => rfl) (.on fun _ => .branch (.on fun _ => .last fun _ => rfl) ?_)
  refine .branch (.last fun _ => rfl) (.on fun signature => ?_)
  cases signature with
  | some signature => exact .done (by simp)
  | none => exact .last fun _ => rfl

instance : Reads (classMember rules) fun node => [node] := by
  refine .of_goes fun high => .on fun _ => .on fun isAccessible => ?_
  extract_lets after
  have joined : ∀ declares, Goes high [] (after declares) fun node => [node] := by
    refine fun declares => .read fun member => ?_
    cases member with
    | some member => exact .done rfl
    | none =>
        refine .on fun _ => .on fun _ => .read fun member => ?_
        cases member with
        | some member => exact .done rfl
        | none =>
            refine .on fun _ => .read fun member => ?_
            cases member with
            | some member => exact .done rfl
            | none => exact .last fun _ => rfl
  exact .branch (joined true) (.on joined)

instance : Reads (classBody rules) id := by
  refine .of_goes fun _ => .on fun _ => .of_reads (Closes.of_reverse fun _ read => ?_).reads
  exact .on fun _ => .branch (.done rfl) (.read fun member => .done (by simp))

instance : Reads (superclass rules) id := by
  refine .of_goes fun high => .read fun parent => .on fun _ => ?_
  extract_lets after
  have joined : ∀ types, Goes high [parent] (after types) id := fun types => .done (by simp)
  exact .branch (.on joined) (joined [])

instance : Moves (heritage rules) := by
  unfold heritage
  infer_instance

theorem goes_turned {high : Nat} {kind : Kind} {first : Node} {others : List Node}
    (isTurned : kind.isTurned = true) :
    Goes high (others ++ [first]) (pure (.node kind (first :: others))) fun node => [node] :=
  Holds.pure fun _ order => .turned isTurned order (.nil (Nat.le_refl _))

instance : Reads (extends? rules) id :=
  .of_goes fun _ => .on fun _ => .branch (.last fun _ => rfl) (.done rfl)

instance : Moves (implements? rules) := by
  unfold implements?
  infer_instance

instance (needsName : Bool) : Reads (classTail rules needsName) fun node => [node] := by
  refine .of_goes fun high => .on fun _ => .on fun types => .read fun parent => .on fun listed => ?_
  extract_lets after
  have joined : Goes high parent (after ()) fun node => [node] := by
    refine .on fun _ => .on fun implemented => .on fun _ => .read fun lateParent => ?_
    extract_lets counted
    have fewer : counted.Sublist (parent ++ lateParent) := by
      unfold counted
      split
      · exact List.sublist_append_right ..
      · exact List.sublist_append_left ..
    refine .forget (Node.coreOfAll_sublist fewer) (.read fun members => ?_)
    have whole : Node.coreOfAll (counted.take 1) ++ Node.coreOfAll (counted.drop 1) =
        Node.coreOfAll counted := by
      rw [← Node.coreOfAll_append, List.take_append_drop]
    exact .change (by simp [← whole]) (goes_turned rfl)
  exact .branch (.on fun _ => joined) joined

instance (needsName : Bool) : Reads (classFrom rules needsName) fun node => [node] :=
  .of_goes fun _ => .on fun _ => .last fun _ => rfl

instance (word : VariableWord) (inLoop : Bool) :
    Reads (declaredVariable rules word inLoop) fun node => [node] := by
  refine .of_goes fun high => .read fun name => ?_
  extract_lets after
  have joined : Goes high [name] (after ()) fun node => [node] := by
    refine .on fun type => .on fun _ => .on fun valued => ?_
    refine .branch (.read fun value => .done (by simp)) (.on fun _ => .on fun _ => .done (by simp))
  exact .branch (.on fun _ => joined) joined

instance (word : VariableWord) (inLoop : Bool) :
    Reads (declaredVariables rules word inLoop) id := by
  refine .of_goes fun _ => .within _ (.of_reads (.of_steps List.reverse rfl fun _ read => ?_))
  refine .on fun _ => .branch (.done rfl) (.read fun declared => .on fun _ => ?_)
  exact .branch (.done (by simp)) (.done (by simp))

instance : Moves (skipStatement rules) := by
  unfold skipStatement
  infer_instance

instance (word : VariableWord) : Reads (variableStatement rules word) fun node => [node] :=
  .of_goes fun _ => .read fun declared => .on fun _ => .branch (.done (by simp))
    (.on fun _ => .done (by simp))

instance : Moves variableWord? := by
  unfold variableWord?
  infer_instance

instance : Reads (enumMember rules) fun node => [node] := by
  refine .of_goes fun high => .on fun computed => ?_
  extract_lets after
  have joined : Goes high [] (after ()) fun node => [node] :=
    .on fun _ => .branch (.read fun value => .done (by simp)) (.done (by simp))
  refine .branch (.on fun _ => .on fun _ => joined) (.on fun token => ?_)
  split
  · exact .on fun _ => joined
  · exact .on fun _ => joined
  · exact .on fun _ => joined
  · exact .refuse

instance : Reads (enumMembers rules) id := by
  refine .of_goes fun _ => .on fun _ => .of_reads (Closes.of_reverse fun _ read => ?_).reads
  refine .read fun member => .on fun _ => .branch (.done (by simp)) (.on fun _ => ?_)
  exact .branch (.done (by simp)) (.on fun _ => .on fun _ => .on fun _ => .done (by simp))

instance : Reads (enumeration rules) fun node => [node] :=
  .of_goes fun _ => .on fun _ => .read fun members => .done (by simp)

instance : Reads (interface rules) fun node => [node] := by
  refine .of_goes fun high => .on fun _ => .on fun types => .on fun extending => ?_
  extract_lets after
  have joined : ∀ parents, Goes high [] (after parents) fun node => [node] := by
    refine fun parents => .on fun _ => ?_
    exact .branch (.on fun _ => .on fun _ => .done (by simp)) (.on fun _ => .done (by simp))
  exact .branch (.on joined) (joined [])

instance : Reads (typeAlias rules) fun node => [node] :=
  .of_goes fun _ => .on fun _ => .on fun _ => .on fun _ => .on fun _ => .on fun _ =>
    .done (by simp)

instance : Reads (moduleBlock rules) fun node => [node] := by
  refine .of_goes fun _ => .on fun _ => .until (fun high read => ?_) fun _ => .done (by simp)
  exact .read fun item => .done (by simp)

instance : Reads (namespaceTail rules) fun node => [node] :=
  .of_goes fun _ => .on fun _ => .on fun _ => .last fun _ => rfl

instance : Reads (ambientModule rules) fun node => [node] := by
  refine .of_goes fun high => .on fun token => ?_
  extract_lets after
  have joined : Goes high [] (after ()) fun node => [node] :=
    .on fun _ => .branch (.last fun _ => rfl) (.on fun _ => .done (by simp))
  split
  · exact .on fun _ => joined
  · exact .on fun _ => joined

instance (word : String) (isWhole : Bool) :
    Reads (typeDeclaration? rules word isWhole) Option.toList := by
  refine .of_goes fun high => ?_
  unfold typeDeclaration?
  extract_lets step
  have moves : Moves step := by
    unfold step
    infer_instance
  refine .on fun newline => .on fun token => ?_
  split
  · exact .on fun _ => .branch (.on fun _ => .read fun type => .done rfl) (.done rfl)
  · exact .branch (.on fun _ => .read fun type => .done rfl) (.done rfl)
  · exact .branch (.on fun _ => .read fun type => .done rfl) (.done rfl)
  · refine .branch (.done rfl) (.on fun _ => .on fun token => ?_)
    split
    · exact .read fun module => .done rfl
    · exact .branch (.read fun module => .done rfl) (.done rfl)
  · exact .branch (.on fun _ => .read fun type => .done rfl) (.done rfl)
  · exact .branch (.on fun _ => .read fun type => .done rfl) (.done rfl)
  · exact .done rfl

instance : Reads (ambientDeclaration? rules) Option.toList := by
  refine .of_goes fun high => .within _ ?_
  refine .on fun _ => .on fun _ => .branch (.read fun _ => .done rfl) (.on fun _ => ?_)
  refine .branch (.read fun _ => .done rfl) (.on fun _ => .branch ?_ (.on fun _ => .branch ?_ ?_))
  · exact .on fun _ => .on fun _ => .read fun _ => .done rfl
  · refine .on fun _ => .on fun _ => ?_
    extract_lets after
    have joined : ∀ word, Goes high [] (after word) Option.toList :=
      fun word => .on fun _ => .read fun _ => .done rfl
    exact .branch (joined .const) (.branch (joined .var) (joined .letWord))
  · refine .on fun _ => .branch (.read fun _ => .done rfl) (.on fun token => ?_)
    split
    · exact .last fun _ => rfl
    · exact .done rfl

end Phrasebook.Source.Grammar
