import Phrasebook.Proofs.Source.Reading
import Phrasebook.Source.Grammar.Patterns

/-!
# Types go forwards

What a type holds stands aside from the order of the text, so that of the recognisers of types only
their going forwards counts.
-/

namespace Phrasebook.Source

open Recogniser

/-- Rules that read what they answer in the order of the text. -/
class Rules.Sound (rules : Rules) : Prop where
  type : Moves rules.type
  expression : Reads rules.expression fun node => [node]
  assignment : Reads rules.assignment fun node => [node]
  unary : Reads rules.unary fun node => [node]
  leftHand : Reads rules.leftHand fun node => [node]
  statement (mayDeclare : Bool) : Reads (rules.statement mayDeclare) fun node => [node]
  moduleItem : Reads rules.moduleItem fun node => [node]
  binding (forbidLet : Bool) : Reads (rules.binding forbidLet) fun node => [node]
  parameters : Reads rules.parameters id
  classTail (needsName : Bool) : Reads (rules.classTail needsName) fun node => [node]
  element : Reads rules.element fun node => [node]

attribute [instance] Rules.Sound.type Rules.Sound.expression Rules.Sound.assignment
  Rules.Sound.unary Rules.Sound.leftHand Rules.Sound.statement Rules.Sound.moduleItem
  Rules.Sound.binding Rules.Sound.parameters Rules.Sound.classTail Rules.Sound.element

namespace Grammar

-- A recogniser with several optional parts is searched once for each way through them.
set_option synthInstance.maxSize 2000

variable {rules : Rules} [Rules.Sound rules]

instance : Moves (typeArguments rules) := by
  unfold typeArguments
  infer_instance

instance : Moves (typeArguments? rules) := by
  unfold typeArguments?
  infer_instance

instance : Moves (annotation? rules) := by
  unfold annotation?
  infer_instance

instance : Moves (typeParameter rules) := by
  unfold typeParameter
  infer_instance

instance : Moves (typeParameters rules) := by
  unfold typeParameters
  infer_instance

instance : Moves (typeParameters? rules) := by
  unfold typeParameters?
  infer_instance

instance : Moves (returnType rules) := by
  unfold returnType
  infer_instance

instance : Moves (signatureParameters rules) := by
  unfold signatureParameters
  infer_instance

instance : Moves (functionType rules) := by
  unfold functionType
  infer_instance

instance : Moves startsFunctionType := by
  unfold startsFunctionType
  infer_instance

instance : Moves memberEnd := by
  unfold memberEnd
  infer_instance

instance : Moves (memberName rules) := by
  refine .bind fun bracketed => ?_
  split
  · infer_instance
  · refine .bind fun token => ?_
    split <;> infer_instance

instance : Moves (indexSignature? rules) := by
  unfold indexSignature?
  infer_instance

instance : Moves (signatureTail rules) := by
  unfold signatureTail
  infer_instance

instance : Moves (accessorSignature rules) := by
  unfold accessorSignature
  infer_instance

instance (readonly : Bool) : Moves (propertySignature rules readonly) := by
  unfold propertySignature
  infer_instance

instance : Moves (typeMember rules) := by
  unfold typeMember
  refine .bind fun called => ?_
  split
  · infer_instance
  · refine .bind fun _ => .bind fun constructs => ?_
    split
    · infer_instance
    · refine .bind fun _ => .bind fun signature => ?_
      cases signature with
      | some signature => infer_instance
      | none =>
          extract_lets after
          have joined : ∀ accessor, Moves (after accessor) := by
            intro accessor
            cases accessor <;> exact inferInstance
          infer_instance

instance : Moves (typeMembers rules) := by
  unfold typeMembers
  infer_instance

instance : Moves (startsMappedType) := by
  unfold startsMappedType
  infer_instance

instance : Moves (mappedType rules) := by
  unfold mappedType
  refine .bind fun _ => .bind fun signed => ?_
  extract_lets after
  have joined : ∀ value, Moves (after value) := by
    intro value
    refine .bind fun _ => .bind fun _ => .bind fun _ => .bind fun _ => .bind fun renamed => ?_
    split <;> infer_instance
  clear_value after
  infer_instance

instance : Moves (tupleElement rules) := by
  unfold tupleElement
  infer_instance

instance : Moves (qualifiedTail) := by
  unfold qualifiedTail
  infer_instance

instance : Moves (typeReference rules) := by
  unfold typeReference
  infer_instance

instance : Moves (importType rules) := by
  unfold importType
  refine .bind fun _ => .bind fun _ => .bind fun token => ?_
  split <;> infer_instance

instance : Moves (typeQuery rules) := by
  unfold typeQuery
  infer_instance

instance : Reads (templateType rules) fun _ => [] := by
  refine .of_goes fun _ => .on fun size => ?_
  refine (Goes.of_reads (.of_steps (fun _ => []) rfl fun _ read => .see fun text => ?_)).as
    fun _ => rfl
  cases piece : Lexeme.readPiece (size + 1) true text with
  | none => exact Holds.refuse
  | some piece =>
      refine .onward (Lexeme.length_readPiece ‹_›) (.branch (.done rfl) ?_)
      exact .on fun _ => .on fun _ => .on fun _ => .done rfl

instance : Moves (primaryType rules) := by
  unfold primaryType
  refine .bind fun token => ?_
  split <;> infer_instance

instance : Moves (postfixType rules) := by
  unfold postfixType
  infer_instance

instance : Moves (inferredBound? rules) := by
  unfold inferredBound?
  infer_instance

instance : Moves (operatorType rules) := by
  unfold operatorType
  infer_instance

instance (operator : String) (operand : Recogniser Node) [Moves operand] :
    Moves (joinedTypes operator operand) := by
  unfold joinedTypes
  infer_instance

instance : Moves (unconditionalType rules) := by
  unfold unconditionalType
  infer_instance

instance : Moves (type rules) := by
  unfold type
  infer_instance

end Grammar
end Phrasebook.Source
