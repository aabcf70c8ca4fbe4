import Phrasebook.Proofs.Source.Functions
import Phrasebook.Source.Grammar.Parens

/-!
# Operators and parentheses in order

Expressions that turn out to be patterns lose what no pattern can hold, but keep their order.
-/

namespace Phrasebook.Source

namespace Node

mutual

/-- A pattern has what its expression has, in the same order, or less. -/
theorem core_asPattern (role : PatternRole) (node : Node) {pattern : Node}
    (equal : node.asPattern role = some pattern) : pattern.core.Sublist node.core := by
  unfold asPattern at equal
  split at equal
  · rename_i target values
    split at equal
    · obtain rfl := Option.some.inj equal
      simp
    · obtain ⟨first, found, rfl⟩ := Option.map_eq_some_iff.mp equal
      simpa using core_asPattern role target found
  · rename_i members
    obtain ⟨patterns, found, rfl⟩ := Option.map_eq_some_iff.mp equal
    simpa using core_membersAsPatterns role members found
  · rename_i items
    obtain ⟨patterns, found, rfl⟩ := Option.map_eq_some_iff.mp equal
    simpa using core_itemsAsPatterns role items found
  · obtain rfl := Option.some.inj equal
    simp
  · obtain rfl := Option.some.inj equal
    simp
  · split at equal
    · obtain rfl := Option.some.inj equal
      simp
    · obtain rfl := Option.some.inj equal
      simp
termination_by sizeOf node

theorem core_membersAsPatterns (role : PatternRole) (members : List Node)
    {patterns : List Node} (equal : membersAsPatterns role members = some patterns) :
    (coreOfAll patterns).Sublist (coreOfAll members) := by
  cases members with
  | nil =>
      obtain rfl := Option.some.inj equal
      simp
  | cons member rest =>
      rw [membersAsPatterns] at equal
      simp only [Option.bind_eq_bind, Option.bind_eq_some_iff] at equal
      obtain ⟨pattern, found, others, rest, equal⟩ := equal
      obtain rfl := Option.some.inj equal
      exact (core_memberAsPattern role member found).append (core_membersAsPatterns role _ rest)
termination_by sizeOf members

theorem core_memberAsPattern (role : PatternRole) (member : Node) {pattern : Node}
    (equal : memberAsPattern role member = some pattern) : pattern.core.Sublist member.core := by
  unfold memberAsPattern at equal
  split at equal
  · rename_i key value
    obtain ⟨first, found, rfl⟩ := Option.map_eq_some_iff.mp equal
    simpa using core_asPattern role value found
  · obtain rfl := Option.some.inj equal
    simp
  · rename_i other _
    split at equal
    · obtain rfl := Option.some.inj equal
      simp
    · obtain ⟨first, found, rfl⟩ := Option.map_eq_some_iff.mp equal
      simpa using core_asPattern role other found
  · cases equal
  · obtain rfl := Option.some.inj equal
    simp
termination_by sizeOf member

theorem core_itemsAsPatterns (role : PatternRole) (items : List Node)
    {patterns : List Node} (equal : itemsAsPatterns role items = some patterns) :
    (coreOfAll patterns).Sublist (coreOfAll items) := by
  unfold itemsAsPatterns at equal
  split at equal
  · obtain rfl := Option.some.inj equal
    simp
  · rename_i rest
    exact (core_itemsAsPatterns role rest equal).trans (List.sublist_append_right ..)
  · rename_i item rest
    split at equal
    · obtain ⟨first, found, rfl⟩ := Option.map_eq_some_iff.mp equal
      simpa using core_asPattern role item found
    · refine (core_itemsAsPatterns role rest equal).trans ?_
      simp
  · rename_i item rest _ _
    simp only [Option.bind_eq_bind, Option.bind_eq_some_iff] at equal
    obtain ⟨pattern, found, others, rest, equal⟩ := equal
    obtain rfl := Option.some.inj equal
    exact (core_asPattern role item found).append (core_itemsAsPatterns role _ rest)
termination_by sizeOf items

end

end Node
namespace Grammar

open Recogniser

variable {rules : Rules} [Rules.Sound rules] {high : Nat}

/-! ## Operators -/

theorem length_operatorOf {lexeme : Lexeme} (sound : lexeme.Sound) {text : String}
    {rest : List Char} (found : operatorOf lexeme = some (text, rest)) :
    rest.length ≤ lexeme.start.length := by
  have ahead := sound.rest
  unfold operatorOf at found
  split at found
  · obtain ⟨sign, _, equal⟩ := Option.map_eq_some_iff.mp found
    obtain rfl : lexeme.start.drop sign.length = rest := (Prod.mk.inj equal).2
    simp
  · cases found
    exact ahead
  · cases found
    exact ahead
  · cases found
    exact ahead
  · cases found

instance : Sees operator? fun found => (found.map Prod.snd).getD [] := by
  refine .of_ask fun cursor sound => ?_
  cases found : operatorOf cursor.current with
  | none => exact Nat.zero_le _
  | some operator => exact length_operatorOf sound.current found

instance : Sees binaryOperator? fun found => (found.map fun operator => operator.2.2).getD [] := by
  refine .of_ask fun cursor sound => ?_
  cases found : operatorOf cursor.current with
  | none => exact Nat.zero_le _
  | some operator =>
      have fits := length_operatorOf sound.current found
      dsimp only [Option.bind_eq_bind, Option.bind_some]
      split
      · exact Nat.zero_le _
      · cases precedence? operator.1 with
        | none => exact Nat.zero_le _
        | some level => exact fits

instance : Moves atOperatorSign := by
  refine .bind fun operator => ?_
  split <;> infer_instance

theorem goes_casts (operand : Node) :
    Goes high [operand] (casts rules operand) fun node => [node] := by
  refine .iterate (fun operand => [operand]) (fun operand => ?_) operand
  refine .on fun _ => .on fun _ => .branch (.done rfl) (.on fun _ => .branch ?_ (.on fun _ => ?_))
  · exact .on fun _ => .on fun _ => .done (by simp)
  · exact .branch (.on fun _ => .on fun type => .done (by simp)) (.done rfl)

theorem goes_operatorsFrom (fuel minimum : Nat) (left : Node) :
    Goes high [left] (operatorsFrom rules fuel minimum left) fun node => [node] := by
  induction fuel generalizing high minimum left with
  | zero => exact .refuse
  | succ fuel ih =>
      unfold operatorsFrom
      extract_lets after
      have joined : ∀ left, Goes high [left] (after left) fun node => [node] := by
        refine fun left => .see fun operator => ?_
        cases operator with
        | none => exact .away (.done rfl)
        | some operator =>
            obtain ⟨text, level, rest⟩ := operator
            dsimp only
            split
            · exact .away (.done rfl)
            · refine .onward (Nat.le_refl _) (.on fun _ => .read fun right => ?_)
              refine (Goes.framed fun _ => ih _ right).bind fun right => ?_
              exact .change (by simp) (ih minimum (.node .binary [left, right]))
      refine .branch ((goes_casts left).bind joined) (joined left)

theorem goes_operatorsAfter (left : Node) :
    Goes high [left] (operatorsAfter rules left) fun node => [node] :=
  .on fun _ => goes_operatorsFrom _ 0 left

instance : Reads (binary rules) fun node => [node] := by
  refine .of_goes fun _ => .read fun first => ?_
  cases first with
  | some first => exact .branch (.done rfl) (goes_operatorsAfter first)
  | none => exact .on fun _ => .on fun _ => .change (by simp) (goes_operatorsAfter (.leaf .invalid))

theorem goes_assignTo (target : Node) :
    Goes high [target] (assignTo rules target) fun node => [node] := by
  refine .see fun operator => ?_
  split
  · rename_i rest
    extract_lets after
    have joined : ∀ pattern : Node, pattern.core.Sublist target.core →
        GoesFrom rest high [target] (after pattern) fun node => [node] := by
      intro pattern fewer
      have changed : Goes high [pattern] (rules.assignment >>= fun value =>
          pure (.node .assignment [pattern, value])) fun node => [node] :=
        .read fun value => .done (by simp)
      exact .onward (Nat.le_refl _) (.forget (by simpa using fewer) changed)
    split
    · split
      · rename_i found
        exact joined _ (Node.core_asPattern _ _ found)
      · exact Holds.refuse
    · exact .require (joined target (List.Sublist.refl _))
  · split
    · refine .require (.onward (Nat.le_refl _) (.read fun value => .done (by simp)))
    · exact .away (.done rfl)
  · exact .away (.done rfl)

theorem goes_branches (condition : Node) (beforeColon : Bool) :
    Goes high [condition] (branches rules condition beforeColon) fun node => [node] :=
  .read fun whenTrue => .on fun _ => .read fun whenFalse => .done (by simp)

instance : Reads (conditional rules) fun node => [node] :=
  .of_goes fun _ => .read fun condition => .branch (.done rfl) (.on fun _ =>
    .branch (goes_branches condition true) (.done rfl))

/-- The nodes of items between parentheses. -/
def nodesOf (items : List ParenItem) : List Node :=
  items.map ParenItem.node

@[simp] theorem nodesOf_append (items others : List ParenItem) :
    nodesOf (items ++ others) = nodesOf items ++ nodesOf others :=
  List.map_append

@[simp] theorem nodesOf_cons (item : ParenItem) (items : List ParenItem) :
    nodesOf (item :: items) = item.node :: nodesOf items :=
  rfl

@[simp] theorem nodesOf_nil : nodesOf [] = [] :=
  rfl

theorem core_asParameter {item : ParenItem} {pattern : Node}
    (found : item.asParameter = some pattern) : pattern.core.Sublist item.node.core := by
  unfold ParenItem.asParameter at found
  split at found
  · obtain rfl := Option.some.inj found
    exact .refl _
  · exact Node.core_asPattern _ _ found

theorem core_parametersOf {items : List ParenItem} {parameters : List Node}
    (found : parametersOf items = some parameters) :
    (Node.coreOfAll parameters).Sublist (Node.coreOfAll (nodesOf items)) := by
  induction items generalizing parameters with
  | nil =>
      obtain rfl := Option.some.inj found
      exact .slnil
  | cons item rest ih =>
      rw [parametersOf] at found
      simp only [Option.bind_eq_bind, Option.bind_eq_some_iff] at found
      obtain ⟨pattern, converted, others, behind, found⟩ := found
      have first := core_asParameter converted
      have all := first.append (ih behind)
      split at found
      · split at found
        · obtain rfl := Option.some.inj found
          exact (List.Sublist.trans (by simp) first).trans (List.sublist_append_left ..)
        · obtain rfl := Option.some.inj found
          exact (ih behind).trans (List.sublist_append_right ..)
      · obtain rfl := Option.some.inj found
        exact all

instance : Reads (expressionItem rules) fun item => [item.node] := by
  refine .of_goes fun _ => .on fun _ => .on fun _ => .branch ?_ (.branch ?_ (.on fun _ => ?_))
  · exact .read fun target => (goes_assignTo target).bind fun _ => .done rfl
  · exact .on fun _ => .read fun _ => .done rfl
  · exact .branch (.read fun _ => .done rfl) (.read fun _ => .done rfl)

theorem goes_typedItem (item : ParenItem) :
    Goes high [item.node] (typedItem rules item) fun item => [item.node] := by
  unfold typedItem
  split
  · exact .refuse
  · rename_i pattern converted
    have fewer := Node.core_asPattern _ _ converted
    exact .on fun _ => .on fun type => .read fun value => .some (by simpa using fewer)

theorem goes_markedItem (item : ParenItem) :
    Goes high [item.node] (markedItem rules item) fun item => [item.node] := by
  refine .on fun _ => .on fun _ => ?_
  extract_lets isOptional withNode after
  have typed : ∀ node, Goes high [node] (withNode node) fun item => [item.node] :=
    fun node => .on fun _ => .branch (goes_typedItem { item with node }) (.done rfl)
  have joined : Goes high [item.node] (after ()) fun item => [item.node] :=
    .on fun _ => .branch ((goes_branches _ _).bind typed) (typed item.node)
  exact .branch (.on fun _ => .on fun _ => joined) joined

theorem goes_arrowAfterItems? (read : List ParenItem) :
    Goes high (nodesOf read.reverse) (arrowAfterItems? rules read)
      fun read => nodesOf read.reverse := by
  refine .on fun _ => .branch ?_ (.done rfl)
  split
  · refine .branch ?_ (.done rfl)
    split
    · exact .read fun body => .done (by simp)
    · exact .refuse
  · exact .done rfl

instance : Closes (parenItems rules) nodesOf := by
  refine .within (.of_steps ParenItem.node fun high read => ?_) _
  refine .on fun _ => .on fun _ => .read fun item => ?_
  refine (Goes.framed fun _ => goes_markedItem item).bind fun item => ?_
  refine .change (by simp [nodesOf]) ((goes_arrowAfterItems? (item :: read)).bind fun read => ?_)
  exact .on fun _ => .done rfl

theorem goes_arrowTail (items : List ParenItem) (isAsync : Bool) (result : List Node) :
    Goes high (nodesOf items) (arrowTail rules items isAsync result) fun found => [found.1] := by
  refine .on fun _ => ?_
  cases found : parametersOf items with
  | none => exact .refuse
  | some parameters =>
      refine .forget (core_parametersOf found) (.on fun _ => .read fun body => .done (by simp))

section Arrow

variable {prior : List Node} {items : List ParenItem}

theorem goes_arrowInConditional? (isAsync : Bool)
    (holding : ∀ low, InOrder high low prior → InOrder high low (nodesOf items)) :
    Goes high prior (arrowInConditional? rules items isAsync)
      fun found => found.elim prior fun node => [node] := by
  refine .on fun _ => .on fun _ =>
    .branch (.attempt (.on fun _ => .on fun result => ?_)) (.done rfl)
  have tail : Goes high prior (arrowTail rules items isAsync [result]) fun found => [found.1] :=
    (goes_arrowTail items isAsync [result]).since fun cursor _ order => holding _ order
  exact tail.bind fun found => .on fun _ => .on fun _ => .done rfl

instance : Moves (resultBeforeArrow? rules) := by
  unfold resultBeforeArrow?
  infer_instance

theorem goes_parenthesised (items : List ParenItem) :
    Goes high (nodesOf items) (parenthesised items) fun node => [node] := by
  refine .on fun _ => .on fun _ => ?_
  split
  · exact .done (by simp)
  · exact .done (by simp; rfl)

theorem goes_operatorsAfterBlock (arrow : Node) :
    Goes high [arrow] (operatorsAfterBlock rules arrow) fun node => [node] :=
  .on fun _ => .branch (goes_operatorsAfter arrow) (.done rfl)

theorem goes_arrowOr {otherwise : Recogniser Node} (mayBeArrow isAsync : Bool)
    (holding : ∀ low, InOrder high low prior → InOrder high low (nodesOf items))
    (goes : Goes high prior otherwise fun node => [node]) :
    Goes high prior (arrowOr rules mayBeArrow items isAsync otherwise) fun node => [node] := by
  refine (goes_arrowInConditional? isAsync holding).bind fun found => ?_
  cases found with
  | some arrow => exact .done rfl
  | none =>
      refine .on fun result => .on fun _ => .branch (.on fun _ => .on fun _ => ?_) goes
      have tail : Goes high prior (arrowTail rules items isAsync result.toList)
          fun found => [found.1] :=
        (goes_arrowTail items isAsync _).since fun cursor _ order => holding _ order
      exact tail.bind fun found => .branch (goes_operatorsAfterBlock found.1) (.done rfl)

end Arrow

instance (mayBeArrow : Bool) : Reads (parenOrArrow rules mayBeArrow) fun node => [node] :=
  .of_goes fun _ => .on fun _ => .read fun items =>
    goes_arrowOr mayBeArrow false (fun _ order => order) (goes_parenthesised items)

theorem core_argumentsOf (items : List ParenItem) :
    Node.coreOfAll (argumentsOf items) = Node.coreOfAll (nodesOf items) := by
  induction items with
  | nil => rfl
  | cons item rest ih =>
      rw [nodesOf_cons, Node.coreOfAll_cons, ← ih, argumentsOf, List.map_cons, Node.coreOfAll_cons]
      split <;> simp [argumentsOf]

theorem goes_asyncCallOrArrow (start : List Char) :
    Goes start.length [] (asyncCallOrArrow rules start) fun node => [node] := by
  have called : Goes start.length [.ident "async"] (asyncCallOrArrow rules start)
      fun node => [node] := by
    refine .on fun _ => .call argumentsOf [] core_argumentsOf (by simp) fun items stop => ?_
    refine goes_arrowOr true true (fun low order => ?_) (.done rfl)
    exact order.parts_of_call.of_coreOfAll (by simp [core_argumentsOf])
  exact .change (by simp) called

end Grammar
end Phrasebook.Source
