import Phrasebook.Source.Calls

/-!
# Trees in the order of the text

The nodes of a list stand one behind the other in a part of the text, each call around those inside
it.  A place is given by the length of the text from there on.  Types, and parameters that stand in
a tree for a second time, are left aside.  A loop with its condition at the end and a class are
visited in another order than they are read.
-/

namespace Phrasebook.Source

/-- Whether a node of a kind stands aside from the order of the text: a type, or what a tree holds
twice. -/
def Kind.isAside (kind : Kind) : Bool :=
  kind == .type || kind == .restated

/-- Whether the first part of a node of a kind stands behind the others in the text. -/
def Kind.isTurned (kind : Kind) : Bool :=
  kind == .doLoop || kind == .classExpression

/-- Whether a node stands aside. -/
def Node.isAside : Node → Bool
  | .node kind _ => kind.isAside
  | _ => false

/-- Whether nodes stand one behind the other between two places, given by the lengths of the text
from there on. -/
inductive InOrder : Nat → Nat → List Node → Prop where
  | nil {high low : Nat} : low ≤ high → InOrder high low []
  | ident {high low : Nat} {name : String} {rest : List Node} :
      InOrder high low rest → InOrder high low (.ident name :: rest)
  | string {high low : Nat} {value : Option String} {rest : List Node} :
      InOrder high low rest → InOrder high low (.string value :: rest)
  | aside {high low : Nat} {kind : Kind} {children rest : List Node} :
      kind.isAside = true → InOrder high low rest →
      InOrder high low (.node kind children :: rest)
  | call {high middle low : Nat} {start stop : List Char} {callee : Node}
      {arguments types rest : List Node} :
      start.length ≤ high → middle ≤ stop.length →
      InOrder start.length (stop.length + 1) (callee :: arguments) →
      (∀ type ∈ types, type.isAside = true) → InOrder middle low rest →
      InOrder high low (.call start stop callee arguments types :: rest)
  | parts {high low : Nat} {kind : Kind} {children rest : List Node} :
      kind.isTurned = false → InOrder high low (children ++ rest) →
      InOrder high low (.node kind children :: rest)
  | turned {high middle low : Nat} {kind : Kind} {first : Node} {others rest : List Node} :
      kind.isTurned = true → InOrder high middle (others ++ [first]) → InOrder middle low rest →
      InOrder high low (.node kind (first :: others) :: rest)

namespace InOrder

variable {high high' middle low low' : Nat} {node : Node} {nodes others rest : List Node}

theorem le (order : InOrder high low nodes) : low ≤ high := by
  induction order with
  | nil le => exact le
  | ident _ ih => exact ih
  | string _ ih => exact ih
  | aside _ _ ih => exact ih
  | call starts stops _ _ _ inside behind => omega
  | parts _ _ ih => exact ih
  | turned _ _ _ first second => exact Nat.le_trans second first

theorem widen (order : InOrder high low nodes) (above : high ≤ high') (below : low' ≤ low) :
    InOrder high' low' nodes := by
  induction order generalizing high' low' with
  | nil le => exact .nil (Nat.le_trans below (Nat.le_trans le above))
  | ident _ ih => exact .ident (ih above below)
  | string _ ih => exact .string (ih above below)
  | aside isAside _ ih => exact .aside isAside (ih above below)
  | call starts stops inside asides _ _ ih =>
      exact .call (Nat.le_trans starts above) stops inside asides (ih (Nat.le_refl _) below)
  | parts isPlain _ ih => exact .parts isPlain (ih above below)
  | turned isTurned _ _ first second =>
      exact .turned isTurned (first above (Nat.le_refl _)) (second (Nat.le_refl _) below)

theorem append (first : InOrder high middle nodes) (second : InOrder middle low others) :
    InOrder high low (nodes ++ others) := by
  induction first with
  | nil le => exact second.widen le (Nat.le_refl _)
  | ident _ ih => exact .ident (ih second)
  | string _ ih => exact .string (ih second)
  | aside isAside _ ih => exact .aside isAside (ih second)
  | call starts stops inside asides _ _ ih => exact .call starts stops inside asides (ih second)
  | parts isPlain _ ih => exact .parts isPlain (by simpa using ih second)
  | turned isTurned read _ _ ih => exact .turned isTurned read (ih second)

theorem exists_of_nothing (order : InOrder high low others) :
    ∃ middle, InOrder high middle [] ∧ InOrder middle low others :=
  ⟨high, .nil (Nat.le_refl _), order⟩

theorem exists_of_append (order : InOrder high low (nodes ++ others)) :
    ∃ middle, InOrder high middle nodes ∧ InOrder middle low others := by
  generalize whole : nodes ++ others = all at order
  induction order generalizing nodes with
  | nil le =>
      obtain ⟨rfl, rfl⟩ := List.append_eq_nil_iff.mp whole
      exact exists_of_nothing (.nil le)
  | ident order ih =>
      rcases List.append_eq_cons_iff.mp whole with ⟨rfl, rfl⟩ | ⟨nodes, rfl, rfl⟩
      · exact exists_of_nothing (.ident order)
      · obtain ⟨middle, before, behind⟩ := ih rfl
        exact ⟨middle, .ident before, behind⟩
  | string order ih =>
      rcases List.append_eq_cons_iff.mp whole with ⟨rfl, rfl⟩ | ⟨nodes, rfl, rfl⟩
      · exact exists_of_nothing (.string order)
      · obtain ⟨middle, before, behind⟩ := ih rfl
        exact ⟨middle, .string before, behind⟩
  | aside isAside order ih =>
      rcases List.append_eq_cons_iff.mp whole with ⟨rfl, rfl⟩ | ⟨nodes, rfl, rfl⟩
      · exact exists_of_nothing (.aside isAside order)
      · obtain ⟨middle, before, behind⟩ := ih rfl
        exact ⟨middle, .aside isAside before, behind⟩
  | call starts stops inside asides order _ ih =>
      rcases List.append_eq_cons_iff.mp whole with ⟨rfl, rfl⟩ | ⟨nodes, rfl, rfl⟩
      · exact exists_of_nothing (.call starts stops inside asides order)
      · obtain ⟨middle, before, behind⟩ := ih rfl
        exact ⟨middle, .call starts stops inside asides before, behind⟩
  | parts isPlain order ih =>
      rcases List.append_eq_cons_iff.mp whole with ⟨rfl, rfl⟩ | ⟨nodes, rfl, rfl⟩
      · exact exists_of_nothing (.parts isPlain order)
      · obtain ⟨middle, before, behind⟩ := ih (List.append_assoc ..)
        exact ⟨middle, .parts isPlain before, behind⟩
  | turned isTurned read order _ ih =>
      rcases List.append_eq_cons_iff.mp whole with ⟨rfl, rfl⟩ | ⟨nodes, rfl, rfl⟩
      · exact exists_of_nothing (.turned isTurned read order)
      · obtain ⟨middle, before, behind⟩ := ih rfl
        exact ⟨middle, .turned isTurned read before, behind⟩

theorem append_iff :
    InOrder high low (nodes ++ others) ↔
      ∃ middle, InOrder high middle nodes ∧ InOrder middle low others :=
  ⟨exists_of_append, fun ⟨_, first, second⟩ => first.append second⟩

theorem cons_iff :
    InOrder high low (node :: rest) ↔
      ∃ middle, InOrder high middle [node] ∧ InOrder middle low rest :=
  @append_iff _ _ [node] _

/-- The parts of a call lie within it. -/
theorem parts_of_call {start stop : List Char} {callee : Node} {arguments types : List Node}
    (order : InOrder high low [.call start stop callee arguments types]) :
    InOrder high low (callee :: arguments) := by
  cases order with
  | call starts stops inside asides behind =>
      exact inside.widen starts (Nat.le_trans behind.le (Nat.le_succ_of_le stops))

/-- Nodes stay in order where some of them are left out. -/
theorem sublist (order : InOrder high low nodes) (fewer : others.Sublist nodes) :
    InOrder high low others := by
  induction fewer generalizing high with
  | slnil => exact order
  | cons node _ ih =>
      obtain ⟨middle, first, second⟩ := cons_iff.mp order
      exact (ih second).widen first.le (Nat.le_refl _)
  | cons_cons node _ ih =>
      obtain ⟨middle, first, second⟩ := cons_iff.mp order
      exact first.append (ih second)

end InOrder

namespace Node

mutual

/-- What counts for the order of a node: calls and turned nodes, without what stands aside. -/
def core : Node → List Node
  | .ident _ => []
  | .string _ => []
  | .call start stop callee arguments types => [.call start stop callee arguments types]
  | .node kind children =>
      if kind.isAside then []
      else if kind.isTurned then [.node kind children]
      else coreOfAll children

/-- What counts for the order of some nodes. -/
def coreOfAll : List Node → List Node
  | [] => []
  | first :: rest => first.core ++ coreOfAll rest

end

attribute [simp] Node.leaf

@[simp] theorem core_ident (name : String) : (ident name).core = [] :=
  rfl

@[simp] theorem core_string (value : Option String) : (string value).core = [] :=
  rfl

@[simp] theorem core_call (start stop : List Char) (callee : Node) (arguments types : List Node) :
    (call start stop callee arguments types).core = [call start stop callee arguments types] :=
  rfl

@[simp] theorem core_node (kind : Kind) (children : List Node) :
    (node kind children).core =
      if kind = .type ∨ kind = .restated then []
      else if kind = .doLoop ∨ kind = .classExpression then [node kind children]
      else coreOfAll children := by
  simp [core, Kind.isAside, Kind.isTurned]

@[simp] theorem coreOfAll_nil : coreOfAll [] = [] :=
  rfl

@[simp] theorem coreOfAll_cons (first : Node) (rest : List Node) :
    coreOfAll (first :: rest) = first.core ++ coreOfAll rest :=
  rfl

@[simp] theorem coreOfAll_append (nodes others : List Node) :
    coreOfAll (nodes ++ others) = coreOfAll nodes ++ coreOfAll others := by
  induction nodes with
  | nil => rfl
  | cons first rest ih => simp [coreOfAll, ih]

theorem coreOfAll_sublist {nodes others : List Node} (fewer : others.Sublist nodes) :
    (coreOfAll others).Sublist (coreOfAll nodes) := by
  induction fewer with
  | slnil => exact .slnil
  | cons node _ ih => exact ih.trans (List.sublist_append_right ..)
  | cons_cons node _ ih => exact (List.Sublist.refl _).append ih

end Node

namespace InOrder

open Node

variable {high low : Nat} {nodes others : List Node}

theorem coreOfAll_of (order : InOrder high low nodes) : InOrder high low (coreOfAll nodes) := by
  induction order with
  | nil le => exact .nil le
  | ident _ ih => exact ih
  | string _ ih => exact ih
  | aside isAside _ ih =>
      rw [coreOfAll, core, isAside]
      exact ih
  | call starts stops inside asides _ _ ih => exact .call starts stops inside asides ih
  | parts isPlain _ ih =>
      rw [coreOfAll, core, isPlain]
      split
      · exact ih.sublist (by simp)
      · simpa using ih
  | turned isTurned read _ _ ih =>
      rw [coreOfAll, core, isTurned]
      split
      · exact ih.widen read.le (Nat.le_refl _)
      · exact .turned isTurned read ih

mutual

theorem of_core : (node : Node) → {high low : Nat} → {rest : List Node} →
    InOrder high low (node.core ++ rest) → InOrder high low (node :: rest)
  | .ident _, _, _, _, order => .ident order
  | .string _, _, _, _, order => .string order
  | .call _ _ _ _ _, _, _, _, order => order
  | .node kind children, _, _, _, order => by
      rw [core] at order
      split at order
      · rename_i isAside
        exact .aside isAside order
      · split at order
        · exact order
        · rename_i isPlain
          exact .parts (by simpa using isPlain) (of_coreOfAll_append children order)

theorem of_coreOfAll_append : (nodes : List Node) → {high low : Nat} → {rest : List Node} →
    InOrder high low (coreOfAll nodes ++ rest) → InOrder high low (nodes ++ rest)
  | [], _, _, _, order => order
  | first :: others, _, _, _, order => by
      rw [coreOfAll, List.append_assoc] at order
      obtain ⟨middle, before, behind⟩ := cons_iff.mp (of_core first order)
      exact before.append (of_coreOfAll_append others behind)

end

/-- The order of nodes is that of what counts in them. -/
theorem coreOfAll_iff : InOrder high low (coreOfAll nodes) ↔ InOrder high low nodes := by
  refine ⟨fun order => ?_, coreOfAll_of⟩
  have alone : InOrder high low (nodes ++ []) := of_coreOfAll_append nodes (by simpa using order)
  simpa using alone

theorem of_sublist (fewer : (coreOfAll others).Sublist (coreOfAll nodes))
    (order : InOrder high low nodes) : InOrder high low others :=
  coreOfAll_iff.mp ((coreOfAll_iff.mpr order).sublist fewer)

theorem of_coreOfAll (same : coreOfAll others = coreOfAll nodes) (order : InOrder high low nodes) :
    InOrder high low others :=
  of_sublist (same ▸ List.Sublist.refl _) order

end InOrder
end Phrasebook.Source
