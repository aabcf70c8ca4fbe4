import Phrasebook.Proofs.Source.Types
import Phrasebook.Source.Grammar.Literals

/-!
# Patterns, functions and literals in order
-/

namespace Phrasebook.Source.Grammar

open Recogniser

variable {rules : Rules} [Rules.Sound rules]

@[simp] theorem core_typeOf (children : List Node) : (typeOf children).core = [] := by
  simp [typeOf]

@[simp] theorem core_withDefault (target : Node) (value : Option Node) :
    (withDefault target value).core = target.core ++ Node.coreOfAll value.toList := by
  cases value <;> simp [withDefault]

@[simp] theorem core_withType (pattern : Node) (type : List Node) :
    (withType pattern type).core = pattern.core := by
  unfold withType
  split <;> simp

instance : Reads (propertyName rules) fun name => [name.node] := by
  refine .of_goes fun _ => .on fun token => ?_
  split
  · exact .on fun _ => .done (by simp [PropertyName.node])
  · exact .on fun _ => .done (by simp [PropertyName.node])
  · exact .on fun _ => .done (by simp [PropertyName.node])
  · exact .on fun _ => .read fun key => .on fun _ => .done (by simp [PropertyName.node])
  · exact .refuse

instance : Reads (initialValue? rules) Option.toList :=
  .of_goes fun _ => .on fun found => .branch (.read fun value => .done (by simp)) (.done rfl)

instance : Reads (bindingElement rules) fun node => [node] :=
  .of_goes fun _ => .read fun target => .read fun value => .done (by simp)

instance : Reads (arrayPattern rules) fun node => [node] := by
  refine .of_goes fun _ => .until (fun high read => ?_) fun _ => .done (by simp)
  refine .on fun _ => .branch (.done rfl) (.on fun rest => ?_)
  extract_lets after
  have joined : ∀ item, Goes high (read.reverse ++ [item]) (after item) List.reverse :=
    fun item => .on fun _ => .done (by simp)
  refine .branch (.read fun target => ?_) (.read joined)
  exact .change (by simp) (joined (.node .rest [target]))

instance : Reads (memberPattern rules) fun node => [node] := by
  refine .of_goes fun _ => .on fun rest => ?_
  refine .branch (.read fun target => .done (by simp)) (.read fun name => .on fun named => ?_)
  refine .branch (.read fun element => .done (by simp)) ?_
  split
  · exact .read fun value => .done (by simp [PropertyName.node])
  · exact .refuse

instance (forbidLet : Bool) : Reads (binding rules forbidLet) fun node => [node] := by
  refine .of_goes fun _ => .on fun token => ?_
  split
  · exact .on fun _ => .last fun _ => rfl
  · exact .on fun _ => .read fun members => .done (by simp)
  · exact .branch (.on fun _ => .done (by simp)) .refuse
  · exact .refuse

instance : Reads (restParameter rules) fun node => [node] :=
  .of_goes fun _ => .read fun target => .read fun value => .on fun type => .on fun _ =>
    .done (by simp)

instance : Reads (singleParameter rules) fun node => [node] := by
  refine .of_goes fun _ => .on fun _ => .read fun target => .on fun _ => ?_
  split
  · exact .on fun _ => .read fun value => .done (by simp)
  · exact .on fun type => .read fun value => .done (by simp)

instance : Reads (parameters rules) id := by
  refine .of_steps List.reverse rfl fun high read => .on fun closed => .on fun ended => ?_
  refine .branch (.done rfl) (.on fun rest => ?_)
  extract_lets after
  have joined : ∀ parameter, Goes high (read.reverse ++ [parameter]) (after parameter)
      (Sum.elim List.reverse id) :=
    fun parameter => .on fun _ => .done (by simp)
  exact .branch (.read joined) (.read joined)

instance : Reads (block rules) fun node => [node] := by
  refine .of_goes fun _ => .on fun _ => .until (fun high read => ?_) fun _ => .done (by simp)
  exact .read fun statement => .done (by simp)

instance : Reads (functionBody? rules) id :=
  .of_goes fun _ => .on fun _ => .branch (.read fun _ => .done rfl) (.on fun _ => .done rfl)

instance : Reads (parameterList rules) id :=
  .of_goes fun _ => .on fun _ => .read fun _ => .on fun _ => .done rfl

instance : Moves (resultType? rules) := by
  unfold resultType?
  infer_instance

instance (isAsync isGenerator : Bool) :
    Reads (functionTail rules isAsync isGenerator) fun node => [node] := by
  refine .of_goes fun _ => .within _ ?_
  exact .on fun types => .read fun parameters => .on fun result => .read fun body =>
    .done (by simp)

instance (naming : Naming) (forbidLet : Bool) : Moves (declaredName rules naming forbidLet) := by
  unfold declaredName
  infer_instance

instance (naming : Naming) (isAsync : Bool) :
    Reads (functionFrom rules naming isAsync) fun node => [node] :=
  .of_goes fun _ => .on fun _ => .on fun _ => .on fun _ => .last fun _ => rfl

instance : Moves startsAsyncFunction := by
  unfold startsAsyncFunction
  infer_instance

instance (isAsync : Bool) : Reads (arrowBody rules isAsync) fun node => [node] :=
  .of_goes fun _ => .on fun _ => .branch (.last fun _ => rfl) (.last fun _ => rfl)

@[simp] theorem core_arrowOf (parameters : List Node) (body : Node) (types : List Node) :
    (arrowOf parameters body types).core = Node.coreOfAll parameters ++ body.core := by
  simp [arrowOf]

instance : Reads (spreadable rules) fun node => [node] := by
  refine .of_goes fun _ => .within _ (.on fun spread => ?_)
  exact .branch (.read fun value => .done (by simp)) (.last fun _ => rfl)

instance : Reads (arrayLiteral rules) fun node => [node] := by
  refine .of_goes fun _ => .until (fun high read => .on fun _ => ?_) fun _ => .done (by simp)
  exact .branch (.done (by simp)) (.read fun item => .on fun _ => .done (by simp))

instance (name : PropertyName) : Moves (memberGoesOn name) := by
  refine .bind fun token => ?_
  split
  · infer_instance
  · infer_instance
  · infer_instance
  · split <;> infer_instance
  · infer_instance
  · infer_instance

instance (word : String) : Reads (prefixedProperty rules word) fun node => [node] := by
  refine .of_goes fun high => .on fun _ => ?_
  extract_lets isAsync after
  have joined : ∀ isGenerator, Goes high [] (after isGenerator) fun node => [node] :=
    fun isGenerator => .read fun name => .read fun function => .done (by simp)
  exact .branch (.on joined) (joined _)

instance : Reads (objectMember rules) fun node => [node] := by
  refine .of_goes fun _ => .on fun spread => ?_
  refine .branch (.read fun value => .done (by simp)) (.on fun generates => ?_)
  refine .branch (.read fun name => .read fun function => .done (by simp)) ?_
  refine .on fun _ => .read fun name => .on fun goesOn => ?_
  refine .branch (.done (by simp)) (.on fun valued => ?_)
  refine .branch (.read fun value => .done (by simp)) (.on fun called => ?_)
  refine .branch (.read fun function => .done (by simp)) ?_
  split
  · refine .on fun _ => .read fun value => ?_
    cases value with
    | some value => exact .done (by simp [PropertyName.node])
    | none =>
        refine .on fun closed => .branch (.done (by simp [PropertyName.node])) ?_
        exact .last fun _ => by simp [PropertyName.node]
  · exact .refuse

instance : Reads (objectLiteral rules) fun node => [node] :=
  .of_goes fun _ => .within _ (.read fun members => .done (by simp))

instance (tagged : Bool) : Reads (templateParts rules tagged) id := by
  refine .of_goes fun _ => .on fun size => ?_
  refine .of_reads (.of_steps List.reverse rfl fun _ read => .see fun text => ?_)
  cases found : Lexeme.readPiece (size + 1) true text with
  | none => exact Holds.refuse
  | some piece =>
      refine .require (.onward (Lexeme.length_readPiece found) (.branch (.done rfl) ?_))
      exact .read fun part => .on fun _ => .on fun _ => .done (by simp)

instance (tagged : Bool) : Reads (template rules tagged) fun node => [node] :=
  .of_goes fun _ => .read fun parts => .done (by simp)

instance : Reads regularExpression fun node => [node] := by
  refine .of_goes fun _ => .see fun text => ?_
  cases found : Lexeme.readRegex false (text.drop 1) with
  | none => exact Holds.giveUp
  | some rest =>
      have fits : rest.length ≤ text.length :=
        Nat.le_trans (Lexeme.length_readRegex found) (by simp)
      exact .onward fits (.done (by simp))

end Phrasebook.Source.Grammar
