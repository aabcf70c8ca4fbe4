import Phrasebook.Proofs.Source.Statements

/-!
# Calls in source order

The calls of a file come in the order of the text, but for those that a turned node parts.  Calls in
types and in what a tree holds twice are left aside.
-/

namespace Phrasebook.Source

/-- The parts of a node, in the order in which they are visited. -/
def Node.parts : Node → List Node
  | .ident _ => []
  | .string _ => []
  | .call _ _ callee arguments types => callee :: (arguments ++ types)
  | .node _ children => children

/-- A node stands among some nodes, or within one of them. -/
inductive Node.Within (node : Node) : List Node → Prop where
  | here {nodes : List Node} : node ∈ nodes → Within node nodes
  | inside {outer : Node} {nodes : List Node} :
      outer ∈ nodes → Within node outer.parts → Within node nodes

namespace Node

variable {node outer : Node} {nodes others rest : List Node}

theorem Within.mono (within : Within node nodes) (subset : nodes ⊆ others) :
    Within node others := by
  cases within with
  | here member => exact .here (subset member)
  | inside member inside => exact .inside (subset member) inside

theorem Within.of_parts (within : Within node (outer.parts ++ rest)) :
    Within node (outer :: rest) := by
  cases within with
  | here member =>
      rcases List.mem_append.mp member with inner | behind
      · exact .inside List.mem_cons_self (.here inner)
      · exact .here (List.mem_cons_of_mem _ behind)
  | inside member inside =>
      rcases List.mem_append.mp member with inner | behind
      · exact .inside List.mem_cons_self (.inside inner inside)
      · exact .inside (List.mem_cons_of_mem _ behind) inside

theorem Within.trans (inner : Within node outer.parts) (within : Within outer nodes) :
    Within node nodes := by
  induction within with
  | here member => exact .inside member inner
  | inside member _ ih => exact .inside member ih

theorem Within.behind (within : Within node rest) : Within node (outer :: rest) :=
  within.mono (List.subset_cons_self ..)

section Call

variable {start stop : List Char} {callee : Node} {arguments types : List Node}

theorem Within.of_callee (within : Within node (callee :: arguments)) :
    Within node (.call start stop callee arguments types :: rest) :=
  .of_parts (within.mono (by simp [parts]))

theorem Within.of_types (within : Within node types) :
    Within node (.call start stop callee arguments types :: rest) :=
  .of_parts (within.mono fun type inside => by simp [parts, inside])

end Call

theorem Within.of_turned {kind : Kind} (within : Within node (others ++ [outer])) :
    Within node (.node kind (outer :: others) :: rest) := by
  refine .of_parts (within.mono ?_)
  intro part inside
  rcases List.mem_append.mp inside with other | first
  · simp [parts, other]
  · simp [parts, List.mem_singleton.mp first]

theorem callsOfAll_append (nodes others : List Node) :
    callsOfAll (nodes ++ others) = callsOfAll nodes ++ callsOfAll others := by
  induction nodes with
  | nil => rfl
  | cons first rest ih => simp [callsOfAll, ih]

theorem callsOfAll_singleton (node : Node) : callsOfAll [node] = node.callExpressions := by
  simp [callsOfAll]

theorem callsOfAll_call (start stop : List Char) (callee : Node) (arguments types : List Node) :
    callsOfAll (.call start stop callee arguments types :: rest) =
      ⟨start, stop, callee, arguments⟩ ::
        (callsOfAll (callee :: arguments) ++ (callsOfAll types ++ callsOfAll rest)) := by
  simp [callsOfAll, callExpressions]

theorem callsOfAll_node (kind : Kind) (children : List Node) :
    callsOfAll (.node kind children :: rest) = callsOfAll (children ++ rest) := by
  rw [callsOfAll_append]
  rfl

theorem mem_callsOfAll {call : CallExpression} :
    call ∈ callsOfAll nodes ↔ ∃ node ∈ nodes, call ∈ node.callExpressions := by
  induction nodes with
  | nil => simp [callsOfAll]
  | cons first rest ih => simp [callsOfAll, ih]

theorem mem_callExpressions_of_part {call : CallExpression} (part : node ∈ outer.parts)
    (member : call ∈ node.callExpressions) : call ∈ outer.callExpressions := by
  have inside : call ∈ callsOfAll outer.parts := mem_callsOfAll.mpr ⟨node, part, member⟩
  cases outer with
  | ident => cases part
  | string => cases part
  | node => exact inside
  | call =>
      rw [parts, callsOfAll, callsOfAll_append, ← List.append_assoc] at inside
      exact List.mem_cons_of_mem _ inside

end Node

/-! ## Where the order breaks -/

/-- A call stands in what is left aside: in a type, or in what a tree holds twice. -/
def HoldsAside (nodes : List Node) (call : CallExpression) : Prop :=
  ∃ kind children, Node.Within (.node kind children) nodes ∧ kind.isAside = true ∧
    call ∈ Node.callsOfAll children

/-- A node parts two calls whose first part stands last in the text: the first call is in this part,
the second one in another. -/
def TurnedBetween (nodes : List Node) (first second : CallExpression) : Prop :=
  ∃ kind part others, Node.Within (.node kind (part :: others)) nodes ∧ kind.isTurned = true ∧
    first ∈ part.callExpressions ∧ second ∈ Node.callsOfAll others

/-- Two calls, of which the first one is visited before the second one, are different parts of the
text, and stand there in this order if nothing turns them. -/
def Follows (nodes : List Node) (first second : CallExpression) : Prop :=
  HoldsAside nodes first ∨ HoldsAside nodes second ∨
    (first.start.length, first.stop.length) ≠ (second.start.length, second.stop.length) ∧
      (second.start.length ≤ first.start.length ∨ TurnedBetween nodes first second)

variable {nodes others rest : List Node} {call first second : CallExpression}

theorem HoldsAside.mono (aside : HoldsAside nodes call)
    (wider : ∀ node, Node.Within node nodes → Node.Within node others) :
    HoldsAside others call := by
  obtain ⟨kind, children, within, isAside⟩ := aside
  exact ⟨kind, children, wider _ within, isAside⟩

theorem HoldsAside.here {kind : Kind} {children : List Node} (isAside : kind.isAside = true)
    (member : call ∈ Node.callsOfAll children) : HoldsAside (.node kind children :: rest) call :=
  ⟨kind, children, .here List.mem_cons_self, isAside, member⟩

theorem HoldsAside.of_isAside (asides : ∀ node ∈ nodes, node.isAside = true)
    (member : call ∈ Node.callsOfAll nodes) : HoldsAside nodes call := by
  obtain ⟨node, inside, found⟩ := Node.mem_callsOfAll.mp member
  have isAside := asides node inside
  cases node with
  | node kind children => exact ⟨kind, children, .here inside, isAside, found⟩
  | ident => cases isAside
  | string => cases isAside
  | call => cases isAside

theorem Follows.mono (follows : Follows nodes first second)
    (wider : ∀ node, Node.Within node nodes → Node.Within node others) :
    Follows others first second := by
  rcases follows with aside | aside | ⟨apart, order⟩
  · exact .inl (aside.mono wider)
  · exact .inr (.inl (aside.mono wider))
  · refine .inr (.inr ⟨apart, order.imp_right ?_⟩)
    rintro ⟨kind, part, others, within, turned⟩
    exact ⟨kind, part, others, wider _ within, turned⟩

theorem pairwise_follows_mono {calls : List CallExpression}
    (pairs : calls.Pairwise (Follows nodes))
    (wider : ∀ node, Node.Within node nodes → Node.Within node others) :
    calls.Pairwise (Follows others) :=
  pairs.imp fun follows => follows.mono wider

/-- Calls that follow each other the other way round are turned. -/
theorem Follows.turn (follows : Follows nodes second first)
    (turned : TurnedBetween nodes first second) : Follows nodes first second := by
  rcases follows with aside | aside | ⟨apart, _⟩
  · exact .inr (.inl aside)
  · exact .inl aside
  · exact .inr (.inr ⟨apart.symm, .inr turned⟩)

/-- A call lies between two places, if it is not left aside. -/
def Between (nodes : List Node) (high low : Nat) (call : CallExpression) : Prop :=
  HoldsAside nodes call ∨
    call.start.length ≤ high ∧ call.stop.length < call.start.length ∧ low ≤ call.stop.length

namespace Between

variable {high high' middle low low' : Nat}

theorem mono (between : Between nodes high low call) (above : high ≤ high') (below : low' ≤ low)
    (wider : ∀ node, Node.Within node nodes → Node.Within node others) :
    Between others high' low' call := by
  rcases between with aside | ⟨starts, long, stops⟩
  · exact .inl (aside.mono wider)
  · exact .inr ⟨Nat.le_trans starts above, long, Nat.le_trans below stops⟩

theorem widen (between : Between nodes high low call)
    (wider : ∀ node, Node.Within node nodes → Node.Within node others) :
    Between others high low call :=
  between.mono (Nat.le_refl _) (Nat.le_refl _) wider

/-- A call that lies behind another one follows it. -/
theorem follows (before : Between nodes high middle first)
    (behind : Between nodes middle low second) :
    Follows nodes first second := by
  rcases before with aside | ⟨_, long, stops⟩
  · exact .inl aside
  · rcases behind with aside | ⟨starts, _, _⟩
    · exact .inr (.inl aside)
    · refine .inr (.inr ⟨?_, .inl (by omega)⟩)
      simp only [ne_eq, Prod.mk.injEq]
      omega

/-- A call within another one follows it. -/
theorem follows_outer (inner : Between nodes first.start.length (first.stop.length + 1) second) :
    Follows nodes first second := by
  rcases inner with aside | ⟨starts, _, stops⟩
  · exact .inr (.inl aside)
  · refine .inr (.inr ⟨?_, .inl starts⟩)
    simp only [ne_eq, Prod.mk.injEq]
    omega

/-- Calls that lie behind others follow them. -/
theorem pairwise_append {front back : List CallExpression}
    (pairFront : front.Pairwise (Follows nodes)) (pairBack : back.Pairwise (Follows nodes))
    (before : ∀ call ∈ front, Between nodes high middle call)
    (behind : ∀ call ∈ back, Between nodes middle low call) :
    (front ++ back).Pairwise (Follows nodes) := by
  refine List.pairwise_append.mpr ⟨pairFront, pairBack, ?_⟩
  exact fun first inFront second inBack => (before first inFront).follows (behind second inBack)

end Between

/-- What follows calls that are left aside does not matter. -/
theorem HoldsAside.pairwise_append {front back : List CallExpression}
    (asides : ∀ call ∈ front, HoldsAside nodes call) (pairBack : back.Pairwise (Follows nodes)) :
    (front ++ back).Pairwise (Follows nodes) := by
  refine List.pairwise_append.mpr ⟨List.pairwise_of_forall_mem_list ?_, pairBack, ?_⟩
  · exact fun call member _ _ => .inl (asides call member)
  · exact fun call member _ _ => .inl (asides call member)

namespace InOrder

variable {high middle low : Nat}

theorem between (order : InOrder high low nodes) {call : CallExpression}
    (member : call ∈ Node.callsOfAll nodes) : Between nodes high low call := by
  induction order with
  | nil => cases member
  | ident order ih =>
      exact (ih member).widen fun _ within => within.behind
  | string order ih =>
      exact (ih member).widen fun _ within => within.behind
  | aside isAside order ih =>
      rcases List.mem_append.mp member with inner | behind
      · exact .inl (.here isAside inner)
      · exact (ih behind).widen fun _ within => within.behind
  | call starts stops inside asides order inner outer =>
      rw [Node.callsOfAll_call] at member
      have long := inside.le
      have le := order.le
      rcases List.mem_cons.mp member with rfl | member
      · exact .inr ⟨starts, long, Nat.le_trans le stops⟩
      · rcases List.mem_append.mp member with member | member
        · exact (inner member).mono starts (by omega) fun _ within => within.of_callee
        · rcases List.mem_append.mp member with member | member
          · exact .inl ((HoldsAside.of_isAside asides member).mono fun _ within => within.of_types)
          · exact (outer member).mono (by omega) (Nat.le_refl _) fun _ within => within.behind
  | parts isPlain order ih =>
      rw [Node.callsOfAll_node] at member
      exact (ih member).widen fun _ within => within.of_parts
  | turned isTurned read order inner outer =>
      have le := order.le
      have ends := read.le
      rw [Node.callsOfAll_node, Node.callsOfAll_append] at member
      rw [Node.callsOfAll_append, Node.callsOfAll_singleton] at inner
      rcases List.mem_append.mp member with member | member
      · exact (inner (List.mem_append.mpr (List.mem_append.mp member).symm)).mono (Nat.le_refl _) le
          fun _ within => within.of_turned
      · exact (outer member).mono ends (Nat.le_refl _) fun _ within => within.behind

section
variable {start stop : List Char} {callee part : Node} {arguments types : List Node} {kind : Kind}

/-- The calls of a call and of what stands behind it: the call itself, those of its parts, those in
its types, and those behind. -/
theorem pairwise_call (stops : middle ≤ stop.length)
    (inside : InOrder start.length (stop.length + 1) (callee :: arguments))
    (asides : ∀ type ∈ types, type.isAside = true) (order : InOrder middle low rest)
    (inner : (Node.callsOfAll (callee :: arguments)).Pairwise (Follows (callee :: arguments)))
    (outer : (Node.callsOfAll rest).Pairwise (Follows rest)) :
    (Node.callsOfAll (.call start stop callee arguments types :: rest)).Pairwise
      (Follows (.call start stop callee arguments types :: rest)) := by
  have parts : ∀ call ∈ Node.callsOfAll (callee :: arguments),
      Between (.call start stop callee arguments types :: rest) start.length (stop.length + 1)
        call :=
    fun call member => (inside.between member).widen fun _ within => within.of_callee
  have asideTypes : ∀ call ∈ Node.callsOfAll types,
      HoldsAside (.call start stop callee arguments types :: rest) call :=
    fun call member => (HoldsAside.of_isAside asides member).mono fun _ within => within.of_types
  have onward : ∀ call ∈ Node.callsOfAll types ++ Node.callsOfAll rest,
      Between (.call start stop callee arguments types :: rest) stop.length low call := by
    intro call member
    rcases List.mem_append.mp member with type | later
    · exact .inl (asideTypes call type)
    · exact (order.between later).mono stops (Nat.le_refl _) fun _ within => within.behind
  have whole : Between (.call start stop callee arguments types :: rest) start.length
      stop.length ⟨start, stop, callee, arguments⟩ :=
    .inr ⟨Nat.le_refl _, inside.le, Nat.le_refl _⟩
  have before : ∀ call ∈ Node.callsOfAll (callee :: arguments),
      Between (.call start stop callee arguments types :: rest) start.length stop.length call :=
    fun call member => (parts call member).mono (Nat.le_refl _) (Nat.le_succ _)
      fun _ within => within
  rw [Node.callsOfAll_call]
  refine List.pairwise_cons.mpr ⟨?_, Between.pairwise_append ?_ ?_ before onward⟩
  · intro second member
    rcases List.mem_append.mp member with within | later
    · exact (parts second within).follows_outer
    · exact whole.follows (onward second later)
  · exact pairwise_follows_mono inner fun _ within => within.of_callee
  · exact HoldsAside.pairwise_append asideTypes
      (pairwise_follows_mono outer fun _ within => within.behind)

/-- The calls of a turned node and of what stands behind it: those of its first part, which stands
last in the text, those of the other parts, and those behind. -/
theorem pairwise_turned (isTurned : kind.isTurned = true)
    (read : InOrder high middle (others ++ [part])) (order : InOrder middle low rest)
    (inner : (Node.callsOfAll (others ++ [part])).Pairwise (Follows (others ++ [part])))
    (outer : (Node.callsOfAll rest).Pairwise (Follows rest)) :
    (Node.callsOfAll (.node kind (part :: others) :: rest)).Pairwise
      (Follows (.node kind (part :: others) :: rest)) := by
  have betweenParts : ∀ call ∈ Node.callsOfAll (part :: others),
      Between (.node kind (part :: others) :: rest) high middle call := by
    intro call member
    refine (read.between ?_).widen fun _ within => within.of_turned
    rw [Node.callsOfAll_append, Node.callsOfAll_singleton]
    exact List.mem_append.mpr (List.mem_append.mp member).symm
  have behind : ∀ call ∈ Node.callsOfAll rest,
      Between (.node kind (part :: others) :: rest) middle low call :=
    fun call member => (order.between member).widen fun _ within => within.behind
  have turned : (Node.callsOfAll (others ++ [part])).Pairwise
      (Follows (.node kind (part :: others) :: rest)) :=
    pairwise_follows_mono inner fun _ within => within.of_turned
  rw [Node.callsOfAll_append, Node.callsOfAll_singleton] at turned
  obtain ⟨pairOthers, pairPart, across⟩ := List.pairwise_append.mp turned
  rw [Node.callsOfAll_node, Node.callsOfAll_append]
  refine Between.pairwise_append (List.pairwise_append.mpr ⟨pairPart, pairOthers, ?_⟩) ?_
    betweenParts behind
  · intro first inPart second inOthers
    have parted : TurnedBetween (.node kind (part :: others) :: rest) first second :=
      ⟨kind, part, others, .here List.mem_cons_self, isTurned, inPart, inOthers⟩
    exact (across second inOthers first inPart).turn parted
  · exact pairwise_follows_mono outer fun _ within => within.behind

end

theorem pairwise (order : InOrder high low nodes) :
    (Node.callsOfAll nodes).Pairwise (Follows nodes) := by
  induction order with
  | nil => exact .nil
  | ident _ ih => exact pairwise_follows_mono ih fun _ within => within.behind
  | string _ ih => exact pairwise_follows_mono ih fun _ within => within.behind
  | aside isAside _ ih =>
      exact HoldsAside.pairwise_append (fun _ member => .here isAside member)
        (pairwise_follows_mono ih fun _ within => within.behind)
  | call _ stops inside asides order inner outer =>
      exact pairwise_call stops inside asides order inner outer
  | parts isPlain _ ih =>
      rw [Node.callsOfAll_node]
      exact pairwise_follows_mono ih fun _ within => within.of_parts
  | turned isTurned read order inner outer =>
      exact pairwise_turned isTurned read order inner outer

end InOrder

theorem Kind.isTurned_of_isAside {kind : Kind} (isAside : kind.isAside = true) :
    kind.isTurned = false := by
  simp only [Kind.isAside, Bool.or_eq_true, beq_iff_eq] at isAside
  rcases isAside with rfl | rfl <;> rfl

/-- A node among some nodes is in order, or the calls in it are left aside. -/
def Sits (nodes : List Node) (node : Node) : Prop :=
  (∃ high low, InOrder high low [node]) ∨ ∀ call ∈ node.callExpressions, HoldsAside nodes call

theorem Sits.part {node outer : Node} (sits : Sits nodes outer) (within : Node.Within outer nodes)
    (member : node ∈ outer.parts) : Sits nodes node := by
  have inside : Node.Within node nodes := (Node.Within.here member).trans within
  rcases sits with ⟨high, low, order⟩ | asides
  · cases outer with
    | ident => cases member
    | string => cases member
    | call start stop callee arguments types =>
        cases order with
        | call starts stops order isAside _ =>
            rcases List.mem_append.mp (show node ∈ (callee :: arguments) ++ types from member)
              with part | type
            · exact .inl ⟨_, _, order.sublist (List.singleton_sublist.mpr part)⟩
            · have aside := isAside node type
              cases node with
              | node kind children =>
                  exact .inr fun call found => ⟨kind, children, inside, aside, found⟩
              | ident => cases aside
              | string => cases aside
              | call => cases aside
    | node kind children =>
        cases order with
        | aside isAside _ =>
            exact .inr fun call found =>
              ⟨kind, children, within, isAside, Node.mem_callsOfAll.mpr ⟨node, member, found⟩⟩
        | parts _ order =>
            refine .inl ⟨_, _, order.sublist (List.singleton_sublist.mpr ?_)⟩
            exact List.mem_append_left _ member
        | turned _ read _ =>
            refine .inl ⟨_, _, read.sublist (List.singleton_sublist.mpr ?_)⟩
            rcases List.mem_cons.mp member with rfl | other
            · simp
            · simp [other]
  · exact .inr fun call found => asides call (Node.mem_callExpressions_of_part member found)

namespace InOrder

variable {high low : Nat}

theorem sits {node : Node} (order : InOrder high low nodes) (within : Node.Within node nodes) :
    Sits nodes node := by
  have reached : ∀ {inner : List Node}, Node.Within node inner →
      (∀ part ∈ inner, Node.Within part nodes ∧ Sits nodes part) → Sits nodes node := by
    intro inner within
    induction within with
    | here member => exact fun inside => (inside _ member).2
    | inside member _ ih =>
        intro inside
        obtain ⟨outer, sits⟩ := inside _ member
        exact ih fun part found => ⟨(Node.Within.here found).trans outer, sits.part outer found⟩
  refine reached within fun part member => ⟨.here member, .inl ⟨high, low, ?_⟩⟩
  exact order.sublist (List.singleton_sublist.mpr member)

theorem lt_of_turnedBetween (order : InOrder high low nodes)
    (turned : TurnedBetween nodes first second) :
    HoldsAside nodes first ∨ HoldsAside nodes second ∨
      first.start.length < second.start.length := by
  obtain ⟨kind, part, others, within, isTurned, inPart, inOthers⟩ := turned
  rcases order.sits within with ⟨high, low, order⟩ | asides
  · cases order with
    | aside isAside _ => exact absurd isTurned (by simp [Kind.isTurned_of_isAside isAside])
    | parts isPlain _ =>
        rw [isPlain] at isTurned
        cases isTurned
    | turned _ read _ =>
        obtain ⟨middle, before, behind⟩ := read.exists_of_append
        have inAll : first ∈ Node.callsOfAll [part] := by rwa [Node.callsOfAll_singleton]
        rcases behind.between inAll with aside | ⟨starts, _, _⟩
        · refine .inl (aside.mono fun _ deeper => ?_)
          exact (deeper.mono (by simp [Node.parts])).trans within
        · rcases before.between inOthers with aside | ⟨_, long, stops⟩
          · refine .inr (.inl (aside.mono fun _ deeper => ?_))
            exact (deeper.mono (by simp [Node.parts])).trans within
          · exact .inr (.inr (by omega))
  · exact .inl (asides first (List.mem_append_left _ inPart))

end InOrder

/-! ## Files -/

namespace File

/-- The part of the text in which a call stands, by the offsets of its beginning and its end. -/
def span (file : File) (call : CallExpression) : Nat × Nat :=
  (file.text.length - call.start.length, file.text.length - call.stop.length)

/-- The calls of functions with some names, in the order in which they are visited. -/
def matching (file : File) (names : List String) : List CallExpression :=
  file.tree.callExpressions.filter fun call => (key? names call).isSome

theorem isSome_site? (file : File) (names : List String) (call : CallExpression) :
    (file.site? names call).isSome = (key? names call).isSome := by
  simp [site?]

/-- Each matching call gives one site. -/
theorem forall₂_matching (file : File) (names : List String) :
    List.Forall₂ (fun call site => file.site? names call = some site) (file.matching names)
      (file.calls names) := by
  unfold matching calls
  induction file.tree.callExpressions with
  | nil => exact .nil
  | cons call rest ih =>
      have same := file.isSome_site? names call
      cases found : file.site? names call with
      | none =>
          rw [found] at same
          rw [List.filter_cons_of_neg (by simp [← same]), List.filterMap_cons_none found]
          exact ih
      | some site =>
          rw [found] at same
          rw [List.filter_cons_of_pos (by simp [← same]), List.filterMap_cons_some found]
          exact .cons found ih

theorem inOrder_of_parse {name code : String} {file : File} (parsed : parse name code = some file) :
    InOrder file.text.length 0 [file.tree] := by
  obtain ⟨tree, read, rfl⟩ := Option.map_eq_some_iff.mp parsed
  exact Grammar.inOrder_parse read

theorem span_ne_and_le_iff {file : File} {first second : CallExpression}
    (order : InOrder file.text.length 0 [file.tree]) (inFirst : first ∈ file.tree.callExpressions)
    (inSecond : second ∈ file.tree.callExpressions) (follows : Follows [file.tree] first second) :
    HoldsAside [file.tree] first ∨ HoldsAside [file.tree] second ∨
      file.span first ≠ file.span second ∧
        ((file.span first).1 ≤ (file.span second).1 ↔
          ¬ TurnedBetween [file.tree] first second) := by
  rw [← Node.callsOfAll_singleton] at inFirst inSecond
  rcases order.between inFirst with aside | ⟨firstFits, firstLong, _⟩
  · exact .inl aside
  rcases order.between inSecond with aside | ⟨secondFits, secondLong, _⟩
  · exact .inr (.inl aside)
  rcases follows with aside | aside | ⟨apart, ordered⟩
  · exact .inl aside
  · exact .inr (.inl aside)
  have differ : file.span first ≠ file.span second := by
    intro same
    obtain ⟨starts, stops⟩ := Prod.mk.inj same
    exact apart (Prod.mk.injEq .. ▸ ⟨by omega, by omega⟩)
  by_cases turned : TurnedBetween [file.tree] first second
  · rcases order.lt_of_turnedBetween turned with aside | aside | behind
    · exact .inl aside
    · exact .inr (.inl aside)
    · exact .inr (.inr ⟨differ, iff_of_false (by dsimp only [span]; omega) (not_not_intro turned)⟩)
  · have before := ordered.resolve_right turned
    exact .inr (.inr ⟨differ, iff_of_true (by dsimp only [span]; omega) turned⟩)

/-- The calls that are found are the matching ones of the tree, each once.  Two of them that are not
left aside are different parts of the text, and come in the order of the text exactly if no turned
node parts them: no loop with its condition at the end, and no class with what it extends. -/
theorem calls_stand_in_source_order_unless_turned (name code : String) (file : File)
    (names : List String) (parsed : parse name code = some file) :
    List.Forall₂ (fun call site => file.site? names call = some site) (file.matching names)
        (file.calls names) ∧
      (file.matching names).Pairwise fun first second =>
        HoldsAside [file.tree] first ∨ HoldsAside [file.tree] second ∨
          file.span first ≠ file.span second ∧
            ((file.span first).1 ≤ (file.span second).1 ↔
              ¬ TurnedBetween [file.tree] first second) := by
  refine ⟨file.forall₂_matching names, List.Pairwise.filter _ ?_⟩
  have order := inOrder_of_parse parsed
  have pairs := order.pairwise
  rw [Node.callsOfAll_singleton] at pairs
  exact pairs.imp_of_mem fun inFirst inSecond follows =>
    span_ne_and_le_iff order inFirst inSecond follows

/-- A call within the arguments of another one comes behind it. -/
theorem nested_calls_stand_in_source_order :
    ∃ file, parse "page.tsx" "t(t(\"a\"))" = some file ∧ (file.matching ["t"]).length = 2 ∧
      (file.matching ["t"]).Pairwise fun first second =>
        HoldsAside [file.tree] first ∨ HoldsAside [file.tree] second ∨
          file.span first ≠ file.span second ∧
            ((file.span first).1 ≤ (file.span second).1 ↔
              ¬ TurnedBetween [file.tree] first second) := by
  have read : (parse "page.tsx" "t(t(\"a\"))").map (fun file => (file.matching ["t"]).length) =
      some 2 := by
    decide +kernel
  obtain ⟨file, parsed, both⟩ := Option.map_eq_some_iff.mp read
  exact ⟨file, parsed, both, (calls_stand_in_source_order_unless_turned _ _ file ["t"] parsed).2⟩

/-- A loop with a call in its body and one in the condition at its end. -/
def conditionBehind : String :=
  "do \x7b t(\"a\"); \x7d while (t(\"b\"));"

/-- The call in the condition of the loop comes before the one in the body. -/
theorem condition_behind_comes_first :
    ∃ file, parse "page.tsx" conditionBehind = some file ∧
      (file.matching ["t"]).map (fun call => (file.span call).1) = [22, 5] ∧
      ¬ (file.matching ["t"]).Pairwise fun first second =>
        (file.span first).1 ≤ (file.span second).1 := by
  have read : (parse "page.tsx" conditionBehind).map (fun file =>
      (file.matching ["t"]).map fun call => (file.span call).1) = some [22, 5] := by
    decide +kernel
  obtain ⟨file, parsed, starts⟩ := Option.map_eq_some_iff.mp read
  refine ⟨file, parsed, starts, fun sorted => ?_⟩
  have sorted := List.pairwise_map.mpr sorted
  rw [starts] at sorted
  exact absurd sorted (by decide)

end File
end Phrasebook.Source
