import Phrasebook.Proofs.Source.Classes
import Phrasebook.Proofs.Source.Operators
import Phrasebook.Source.Grammar.Markup

/-!
# Expressions in order

What stands behind an expression is read after it; a call ends with its closing parenthesis.
-/

namespace Phrasebook.Source.Grammar

open Recogniser

variable {rules : Rules} [Rules.Sound rules] {high : Nat}

instance : Reads (genericAsyncArrow rules) fun node => [node] :=
  .of_goes fun _ => .on fun _ => .read fun parameters => .on fun _ => .on fun _ =>
    .read fun body => .done (by simp)

instance (mayBeArrow : Bool) : Reads (asyncExpression? rules mayBeArrow) Option.toList := by
  refine .of_goes fun high => .here fun start => .on fun _ => .on fun _ => .branch (.done rfl) ?_
  refine .branch (.on fun _ => .read fun _ => .done rfl) ?_
  extract_lets after
  have joined : ∀ generic, Goes start.length (generic.elim [] fun node => [node])
      (after generic) Option.toList := by
    intro generic
    cases generic with
    | some arrow => exact .done rfl
    | none =>
        refine .branch (.on fun _ => ?_) (.done rfl)
        exact (goes_asyncCallOrArrow start).bind fun _ => .done rfl
  exact .branch ((Goes.attempt (.on fun _ => .last fun _ => rfl)).bind joined) (joined none)

instance (name : String) (mayBeArrow : Bool) :
    Reads (nameOrArrow rules name mayBeArrow) fun node => [node] := by
  refine .of_goes fun _ => .on fun _ => .on fun _ => .on fun _ => .on fun _ => ?_
  refine .branch (.read fun parameter => .on fun _ => .branch ?_ ?_) ?_
  · exact .on fun type => .some (by simp)
  · exact .on fun _ => .read fun body => .done (by simp)
  · exact .on fun _ => .on fun _ => .branch (.read fun body => .done (by simp)) (.done (by simp))

instance (name : String) (mayBeArrow : Bool) :
    Reads (wordExpression rules name mayBeArrow) fun node => [node] := by
  refine .of_goes fun _ => ?_
  unfold wordExpression
  split
  · exact .on fun _ => .done (by simp)
  · exact .on fun _ => .done (by simp)
  · exact .on fun _ => .done (by simp)
  · exact .on fun _ => .done (by simp)
  · exact .last fun _ => rfl
  · exact .last fun _ => rfl
  · refine .read fun found => ?_
    cases found with
    | some node => exact .done rfl
    | none => exact .on fun _ => .branch (.last fun _ => rfl) .refuse

instance : Reads (primary rules) fun node => [node] := by
  refine .of_goes fun _ => .on fun _ => .on fun token => ?_
  split
  · exact .last fun _ => rfl
  · exact .on fun _ => .done (by simp)
  · exact .on fun _ => .done (by simp)
  · exact .on fun _ => .done (by simp)
  · exact .last fun _ => rfl
  · exact .on fun _ => .last fun _ => rfl
  · exact .on fun _ => .last fun _ => rfl
  · exact .last fun _ => rfl
  · exact .last fun _ => rfl
  · exact .last fun _ => rfl
  · exact .refuse

/-! ## Members and calls -/

instance : Closes (callArguments rules) id :=
  .within (.behind inferInstance) _

theorem goes_callBehind {start : List Char} (callee : Node) (types : List Node) :
    Goes start.length [callee] (callBehind rules start callee types) fun node => [node] := by
  refine .call id [typeOf types] (fun _ => rfl) (by simp [typeOf, Node.isAside, Kind.isAside])
    fun arguments stop => ?_
  unfold callOf
  split
  · exact .parts (.done (by simp))
  · exact .done rfl

instance : Moves mayInstantiate := by
  unfold mayInstantiate
  infer_instance

section Behind

variable {start : List Char} {object : Node}

theorem goes_afterTypeArguments (types : List Node) (allowCall : Bool) :
    Goes start.length [object] (afterTypeArguments rules start object types allowCall)
      fun node => [node] := by
  refine .on fun _ => .branch (goes_callBehind object types) (.on fun _ => .branch ?_ ?_)
  · exact .read fun template => .done (by simp)
  · exact .on fun _ => .on fun _ => .done (by simp)

instance : Moves memberWord := by
  refine .bind fun token => ?_
  split <;> infer_instance

theorem goes_chainLink : Goes high [object] (chainLink rules object) fun node => [node] := by
  refine .on fun _ => ?_
  extract_lets after
  have joined : ∀ types, Goes high [object] (after types) fun node => [node] := by
    refine fun types => .on fun _ => .branch ?_ (.on fun _ => .branch ?_ ?_)
    · exact .read fun index => .on fun _ => .done (by simp)
    · exact .read fun arguments => .done (by simp)
    · exact .on fun _ => .on fun _ => .on fun _ => .done (by simp)
  exact .branch (.on joined) (joined none)

@[simp high] theorem core_member (object : Node) (children : List Node) :
    (Node.node (memberKind object) children).core = Node.coreOfAll children := by
  unfold memberKind
  split <;> simp

theorem goes_subscript? (allowCall : Bool) :
    Goes start.length [object] (subscript? rules start object allowCall)
      fun found => found.elim [object] fun node => [node] := by
  refine .on fun _ => ?_
  extract_lets after
  have joined : ∀ instantiated : Option Node, Goes start.length
      (instantiated.elim [object] fun node => [node]) (after instantiated)
      fun found => found.elim [object] fun node => [node] := by
    intro instantiated
    cases instantiated with
    | some node => exact .done rfl
    | none =>
        refine .on fun _ => .on fun _ => .branch (.done (by simp)) (.on fun _ => .branch ?_ ?_)
        · exact goes_chainLink.bind fun node => .done rfl
        · refine .on fun _ => .branch ?_ (.on fun _ => .branch ?_ (.on fun _ => .branch ?_ ?_))
          · exact .read fun index => .on fun _ => .done (by simp)
          · exact (goes_callBehind object []).bind fun node => .done rfl
          · exact .on fun _ => .done (by simp)
          · refine .on fun _ => .branch ?_ (.done rfl)
            exact .on fun _ => .read fun template => .done (by simp)
  refine .branch ((Goes.attempt (.on fun types => ?_)).bind joined) (joined none)
  exact goes_afterTypeArguments types allowCall

theorem goes_subscripts (allowCall : Bool) :
    Goes start.length [object] (subscripts rules start object allowCall) fun node => [node] := by
  refine .iterate (fun object => [object]) (fun object => ?_) object
  refine (goes_subscript? allowCall).bind fun found => ?_
  cases found with
  | some node => exact .done rfl
  | none => exact .done rfl

theorem goes_superExpression (allowCall : Bool) :
    Goes start.length [] (superExpression rules start allowCall) fun node => [node] := by
  refine .on fun _ => .on fun _ => .branch ?_ (.on fun _ => .branch ?_ ?_)
  · exact .read fun arguments => .change (by simp) (goes_subscripts allowCall)
  · exact .read fun index => .on fun _ => .change (by simp) (goes_subscripts allowCall)
  · exact .on fun _ => .on fun _ => .change (by simp) (goes_subscripts allowCall)

theorem goes_importExpression (allowCall : Bool) :
    Goes start.length [] (importExpression rules start allowCall) fun node => [node] := by
  refine .on fun _ => .on fun _ => ?_
  extract_lets after
  have joined : ∀ isMeta, Goes start.length [] (after isMeta) fun node => [node] := by
    refine fun isMeta => .branch (.change (by simp) (goes_subscripts allowCall)) ?_
    exact .on fun _ => .read fun arguments => .change (by simp) (goes_subscripts allowCall)
  refine .branch (.on fun _ => .branch (joined true) ?_) (joined false)
  exact .on fun _ => .on fun _ => .on fun _ => joined false

end Behind

theorem reads_memberOrNew (fuel : Nat) (nested : Bool) :
    Reads (memberOrNew rules fuel nested) fun node => [node] := by
  induction fuel generalizing nested with
  | zero => exact .of_goes fun _ => .refuse
  | succ fuel ih =>
      have callees := ih true
      refine .of_goes fun _ => .here fun start => .on fun _ => .branch (.on fun _ => ?_) ?_
      · refine .on fun _ => .branch ?_ ?_
        · exact .on fun _ => .change (by simp) (goes_subscripts false)
        · refine .read fun callee => .branch (.done rfl) (.on fun _ => .on fun _ => ?_)
          extract_lets after
          have joined : ∀ types, Goes start.length [callee] (after types) fun node => [node] := by
            refine fun types => .on fun _ => .branch (.read fun arguments => ?_) (.branch ?_ ?_)
            · exact .change (by simp) (goes_subscripts false)
            · exact .done (by simp)
            · exact .change (by simp) (goes_subscripts false)
          exact .branch (.on joined) (joined none)
      · refine .on fun _ => .branch (goes_superExpression false) (.on fun _ => ?_)
        refine .branch (goes_importExpression false) (.read fun object => ?_)
        exact .branch (.done rfl) (goes_subscripts false)

instance : Reads (leftHand rules) fun node => [node] := by
  refine .of_goes fun _ => .here fun start => .on fun _ => .on fun _ => .branch ?_ ?_
  · exact .on fun _ => .read fun node => .on fun _ => .done rfl
  · refine .on fun _ => .branch (goes_superExpression true) (.on fun _ => ?_)
    refine .branch (goes_importExpression true) (.on fun size => ?_)
    have reads : Reads (memberOrNew rules (size + 1) false) fun node => [node] :=
      reads_memberOrNew (size + 1) false
    refine .read fun callee => .branch (.done rfl) (.on fun _ => ?_)
    extract_lets after
    have joined : ∀ types, Goes start.length [callee] (after types) fun node => [node] := by
      refine fun types => .branch (.on fun _ => .done rfl) (.on fun _ => .branch ?_ (.done rfl))
      exact (goes_callBehind callee _).bind fun call => goes_subscripts true
    exact .branch (.on joined) (joined none)

instance : Reads (angleCast rules) fun node => [node] := by
  refine .of_goes fun _ => .on fun _ => .on fun _ => .on fun _ => .branch ?_ ?_
  · exact .on fun _ => .on fun _ => .read fun node => .done (by simp)
  · exact .on fun type => .on fun _ => .read fun node => .done (by simp)

instance : Reads (awaitExpression rules) fun node => [node] :=
  .of_goes fun _ => .on fun _ => .on fun _ => .on fun _ => .on fun _ => .on fun _ =>
    .branch (.done (by simp)) (.read fun node => .done (by simp))

instance : Reads (unary rules) fun node => [node] := by
  refine .of_goes fun _ => .on fun _ => .on fun _ => .branch (.last fun _ => rfl) ?_
  refine .on fun _ => .branch (.on fun _ => .read fun operand => .done (by simp)) ?_
  have recovers : Reads (recover rules.unary (.leaf .invalid)) fun node => [node] :=
    .recover inferInstance (by simp)
  refine .on fun _ => .on fun _ => .branch (.on fun _ => .read fun operand => .done (by simp)) ?_
  refine .on fun _ => .branch (.last fun _ => rfl) (.read fun operand => .on fun _ => ?_)
  exact .branch (.done rfl) (.on fun _ => .branch (.on fun _ => .done (by simp)) (.done rfl))

instance : Reads (yieldExpression rules) fun node => [node] := by
  refine .of_goes fun _ => .on fun _ => .on fun _ => .on fun _ => .on fun _ => ?_
  exact .branch (.done (by simp)) (.on fun _ => .read fun node => .done (by simp))

instance : Reads (plainAssignment rules) fun node => [node] := by
  refine .of_goes fun _ => .on fun _ => .on fun _ => .branch (.last fun _ => rfl) ?_
  refine .on fun _ => .on fun _ => .on fun _ => .read fun target => ?_
  exact .branch (.done rfl) (goes_assignTo target)

instance : Moves unlikeElement := by
  unfold unlikeElement
  infer_instance

instance : Reads (genericArrow rules) fun node => [node] := by
  refine .of_goes fun _ => .within _ (.on fun _ => .on fun _ => .on fun _ => .on fun _ => ?_)
  refine .on fun _ => .on fun _ => .on fun types => .read fun arrow => ?_
  split
  · exact .done (by simp)
  · exact .refuse

instance : Reads (assignment rules) fun node => [node] := by
  refine .of_goes fun _ => .on fun _ => .branch (.on fun _ => ?_) (.last fun _ => rfl)
  refine .branch (.last fun _ => rfl) (.read fun arrow => ?_)
  cases arrow with
  | some arrow => exact .done rfl
  | none => exact .last fun _ => rfl

instance : Reads (expression rules) fun node => [node] := by
  refine .of_goes fun _ => .read fun first => .on fun _ => .branch ?_ (.done rfl)
  refine .gather List.reverse rfl (fun high read => ?_) fun others => .done (by simp)
  exact .on fun _ => .branch (.read fun next => .done (by simp)) (.done rfl)

instance : Reads markupWord fun _ => [] := by
  refine .of_goes fun _ => .see fun text => ?_
  cases text with
  | nil => exact Holds.refuse
  | cons c rest =>
      dsimp only
      split
      · have fits := (List.dropWhile_sublist (fun c => Text.continuesIdentifier c || c == '-')
          (l := rest)).length_le
        exact .onward (Nat.le_succ_of_le fits) (.done rfl)
      · exact Holds.refuse

instance : Moves elementName := by
  unfold elementName
  infer_instance

instance : Reads (bracedExpression rules) fun node => [node] :=
  .of_goes fun _ => .within _ (.read fun _ => .on fun _ => .on fun _ => .done rfl)

instance : Reads (attributeValue rules) id := by
  refine .of_goes fun _ => .see fun text => ?_
  split
  · exact .onward (Nat.le_succ _) (.read fun value => .on fun _ => .done rfl)
  · exact .onward (Nat.le_succ _) (.read fun value => .on fun _ => .done rfl)
  · rename_i quote rest _ _
    split
    · split
      · exact Holds.refuse
      · rename_i after found
        have fits := (List.dropWhile_sublist (· ≠ quote) (l := rest)).length_le
        rw [found] at fits
        exact .onward (Nat.le_succ_of_le (Nat.le_of_succ_le fits)) (.done rfl)
    · exact Holds.refuse
  · exact Holds.refuse

instance : Reads (elementAttribute rules) id := by
  refine .of_goes fun high => .on fun _ => .branch ?_ ?_
  · exact .on fun _ => .read fun node => .on fun _ => .done rfl
  · refine .on fun _ => .on fun _ => ?_
    extract_lets after
    have joined : Goes high [] (after ()) id :=
      .on fun _ => .branch (.last fun _ => rfl) (.done rfl)
    exact .branch (.on fun _ => joined) joined

instance : Reads (elementAttributes rules) id := by
  refine .of_steps id rfl fun _ read => .on fun _ => .branch (.done rfl) ?_
  exact .read fun nodes => .done rfl

instance : Reads (elementContent rules) id := by
  refine .of_steps id rfl fun high read => .see fun text => ?_
  have fits := (List.dropWhile_sublist (fun c => !(c == '<' || c == '\x7b')) (l := text)).length_le
  dsimp only [id]
  split
  · rename_i rest found
    rw [found] at fits
    refine .onward (Nat.le_of_succ_le fits) (.on fun _ => .branch (.done rfl) ?_)
    exact .read fun child => .done rfl
  · rename_i rest found
    rw [found] at fits
    refine .onward (Nat.le_of_succ_le fits) (.on fun _ => .branch (.done rfl) ?_)
    exact .on fun _ => .read fun child => .done rfl
  · exact Holds.refuse

instance : Reads (elementTail rules) fun node => [node] := by
  refine .of_goes fun high => .on fun _ => .branch ?_ (.on fun name => .on fun _ => ?_)
  · exact .read fun content => .on fun _ => .on fun _ => .done (by simp)
  · extract_lets after
    have joined : ∀ types, Goes high [] (after types) fun node => [node] := by
      refine fun types => .read fun attributes => .on fun _ => .branch ?_ ?_
      · exact .on fun _ => .on fun _ => .done (by simp)
      · exact .read fun content => .on fun _ => .on fun _ => .on fun _ => .on fun _ =>
          .done (by simp)
    exact .branch (.on joined) (joined [])

end Phrasebook.Source.Grammar
