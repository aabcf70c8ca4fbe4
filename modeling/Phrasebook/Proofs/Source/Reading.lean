import Phrasebook.Proofs.Source.InOrder
import Phrasebook.Proofs.Source.Lexing
import Phrasebook.Source.Grammar.Rules

/-!
# What recognisers read

A recogniser goes forwards in the text, also where it refuses.  What it answers stands in the text
between the two cursors, in order.  Both are shown step by step along a recogniser: each step adds
the nodes it reads to those before it.
-/

namespace Phrasebook.Source

variable {α β σ : Type}

/-- How much of the text is left from the current token on. -/
def Cursor.left (cursor : Cursor) : Nat :=
  cursor.current.start.length

/-- A cursor whose token has been read behind the token before it. -/
structure Cursor.Sound (cursor : Cursor) : Prop where
  current : cursor.current.Sound
  behind : cursor.left ≤ cursor.behind.length

/-- Whether an answer goes on forwards from a cursor, with a value as it should be. -/
def Answer.Lands (answer : Answer α) (origin : Cursor) (after : α → Cursor → Prop) : Prop :=
  match answer with
  | .ok value cursor => cursor.Sound ∧ cursor.left ≤ origin.left ∧ after value cursor
  | .refused cursor => cursor.Sound ∧ cursor.left ≤ origin.left

theorem Answer.Lands.weaken {answer : Answer α} {origin : Cursor} {after weaker : α → Cursor → Prop}
    (lands : answer.Lands origin after)
    (weaken : ∀ value cursor, cursor.Sound → cursor.left ≤ origin.left → after value cursor →
      weaker value cursor) : answer.Lands origin weaker := by
  cases answer with
  | ok value cursor => exact ⟨lands.1, lands.2.1, weaken value cursor lands.1 lands.2.1 lands.2.2⟩
  | refused cursor => exact lands

namespace Recogniser

/-- From cursors as before, a recogniser goes forwards to what is after. -/
def Holds (before : Cursor → Prop) (recogniser : Recogniser α) (after : α → Cursor → Prop) : Prop :=
  ∀ cursor, cursor.Sound → before cursor → (recogniser cursor).Lands cursor after

/-- What stands in order before a recogniser stands in order with what it reads. -/
def Goes (high : Nat) (prior : List Node) (recogniser : Recogniser α) (post : α → List Node) :
    Prop :=
  Holds (fun cursor => InOrder high cursor.left prior) recogniser
    fun value cursor => InOrder high cursor.left (post value)

/-- A recogniser that goes forwards. -/
class Moves (recogniser : Recogniser α) : Prop where
  lands : ∀ cursor, cursor.Sound → (recogniser cursor).Lands cursor fun _ _ => True

/-- A recogniser that reads nodes in the order of the text. -/
class Reads (recogniser : Recogniser α) (nodes : outParam (α → List Node)) : Prop where
  lands : ∀ cursor, cursor.Sound →
    (recogniser cursor).Lands cursor fun value place =>
      InOrder cursor.left place.left (nodes value)

variable {before : Cursor → Prop} {after middle : α → Cursor → Prop} {final : β → Cursor → Prop}
variable {recogniser other : Recogniser α} {next : α → Recogniser β} {value : α}
variable {high : Nat} {prior less : List Node} {nodes post : α → List Node} {whole : β → List Node}

theorem Holds.pure (holds : ∀ cursor, before cursor → after value cursor) :
    Holds before (Pure.pure value) after :=
  fun cursor sound start => ⟨sound, Nat.le_refl _, holds cursor start⟩

theorem Holds.refuse : Holds before Recogniser.refuse after :=
  fun _ sound _ => ⟨sound, Nat.le_refl _⟩

theorem Holds.ask (property : Cursor → α) :
    Holds before (Recogniser.ask property)
      fun value cursor => value = property cursor ∧ before cursor :=
  fun _ sound start => ⟨sound, Nat.le_refl _, rfl, start⟩

theorem Holds.since (holds : Holds before recogniser after) {stronger : Cursor → Prop}
    (first : ∀ cursor, cursor.Sound → stronger cursor → before cursor) :
    Holds stronger recogniser after :=
  fun cursor sound start => holds cursor sound (first cursor sound start)

theorem Holds.bind (first : Holds before recogniser middle)
    (second : ∀ value, Holds (middle value) (next value) final) :
    Holds before (recogniser >>= next) final := by
  intro cursor sound start
  have landed := first cursor sound start
  change Answer.Lands (match recogniser cursor with
    | .ok value cursor => next value cursor
    | .refused cursor => .refused cursor) cursor final
  cases read : recogniser cursor with
  | refused place =>
      rw [read] at landed
      exact landed
  | ok value place =>
      rw [read] at landed
      obtain ⟨soundThere, forwards, there⟩ := landed
      have onward := second value place soundThere there
      dsimp only
      cases further : next value place with
      | refused last =>
          rw [further] at onward
          exact ⟨onward.1, Nat.le_trans onward.2 forwards⟩
      | ok result last =>
          rw [further] at onward
          exact ⟨onward.1, Nat.le_trans onward.2.1 forwards, onward.2.2⟩

theorem Reads.of_goes (goes : ∀ high, Goes high [] recogniser nodes) : Reads recogniser nodes where
  lands cursor sound := goes cursor.left cursor sound (.nil (Nat.le_refl _))

instance (priority := low) moves_of_reads [reads : Reads recogniser nodes] : Moves recogniser where
  lands cursor sound := (reads.lands cursor sound).weaken fun _ _ _ _ _ => trivial

namespace Goes

theorem of_moves (moves : Moves recogniser) : Goes high prior recogniser fun _ => prior :=
  fun cursor sound order => (moves.lands cursor sound).weaken
    fun _ _ _ forwards _ => order.widen (Nat.le_refl _) forwards

theorem of_reads (reads : Reads recogniser nodes) :
    Goes high prior recogniser fun value => prior ++ nodes value :=
  fun cursor sound order => (reads.lands cursor sound).weaken
    fun _ _ _ _ behind => order.append behind

theorem bind (first : Goes high prior recogniser post)
    (second : ∀ value, Goes high (post value) (next value) whole) :
    Goes high prior (recogniser >>= next) whole :=
  Holds.bind first second

/-- A step that reads no nodes. -/
theorem on [moves : Moves recogniser] (second : ∀ value, Goes high prior (next value) whole) :
    Goes high prior (recogniser >>= next) whole :=
  (of_moves moves).bind second

/-- A step that reads nodes. -/
theorem read [reads : Reads recogniser nodes]
    (second : ∀ value, Goes high (prior ++ nodes value) (next value) whole) :
    Goes high prior (recogniser >>= next) whole :=
  (of_reads reads).bind second

theorem refuse : Goes high prior Recogniser.refuse post :=
  Holds.refuse

theorem branch {condition : Prop} [Decidable condition] (first : Goes high prior recogniser post)
    (second : Goes high prior other post) :
    Goes high prior (if condition then recogniser else other) post := by
  split
  · exact first
  · exact second

/-- The result, which stands for the nodes so far or some of them. -/
theorem some (fewer : (Node.coreOfAll (post value)).Sublist (Node.coreOfAll prior)) :
    Goes high prior (Pure.pure value) post :=
  Holds.pure fun _ order => order.of_sublist fewer

/-- The result, which stands for the nodes so far. -/
theorem done (same : Node.coreOfAll (post value) = Node.coreOfAll prior) :
    Goes high prior (Pure.pure value) post :=
  Holds.pure fun _ order => order.of_coreOfAll same

/-- The same nodes under other ones. -/
theorem change (same : Node.coreOfAll less = Node.coreOfAll prior)
    (goes : Goes high less recogniser post) : Goes high prior recogniser post :=
  fun cursor sound order => goes cursor sound (order.of_coreOfAll same)

/-- Nodes that are left out. -/
theorem forget (fewer : (Node.coreOfAll less).Sublist (Node.coreOfAll prior))
    (goes : Goes high less recogniser post) : Goes high prior recogniser post :=
  fun cursor sound order => goes cursor sound (order.of_sublist fewer)

/-- What stands before stays before. -/
theorem framed (goes : ∀ high, Goes high less recogniser post) :
    Goes high (prior ++ less) recogniser fun value => prior ++ post value := by
  intro cursor sound order
  obtain ⟨middle, before, behind⟩ := order.exists_of_append
  exact (goes middle cursor sound behind).weaken fun _ _ _ _ onward => before.append onward

/-- The same nodes after a recogniser under other ones. -/
theorem as (goes : Goes high prior recogniser post) {others : α → List Node}
    (same : ∀ value, Node.coreOfAll (others value) = Node.coreOfAll (post value)) :
    Goes high prior recogniser others :=
  fun cursor sound order => (goes cursor sound order).weaken
    fun value _ _ _ behind => behind.of_coreOfAll (same value)

/-- The last step of a recogniser. -/
theorem last [reads : Reads recogniser nodes]
    (same : ∀ value, Node.coreOfAll (post value) = Node.coreOfAll (prior ++ nodes value)) :
    Goes high prior recogniser post :=
  (of_reads reads).as same

end Goes

/-! ## Recognisers of any kind -/

theorem Moves.holds (moves : Moves recogniser) :
    Holds (fun _ => True) recogniser fun _ _ => True :=
  fun cursor sound _ => moves.lands cursor sound

theorem Moves.of_holds (holds : Holds (fun _ => True) recogniser fun _ _ => True) :
    Moves recogniser where
  lands cursor sound := holds cursor sound trivial

theorem Moves.reads (moves : Moves recogniser) : Reads recogniser fun _ => [] where
  lands cursor sound :=
    (moves.lands cursor sound).weaken fun _ _ _ forwards _ => .nil forwards

instance : Moves (Pure.pure value : Recogniser α) :=
  .of_holds (Holds.pure fun _ _ => trivial)

instance : Moves (Recogniser.refuse : Recogniser α) :=
  .of_holds Holds.refuse

instance (property : Cursor → α) : Moves (ask property) :=
  .of_holds fun _ sound _ => ⟨sound, Nat.le_refl _, trivial⟩

theorem Moves.bind [moves : Moves recogniser] (moveOn : ∀ value, Moves (next value)) :
    Moves (recogniser >>= next) :=
  .of_holds (moves.holds.bind fun value => (moveOn value).holds)

instance [Moves recogniser] [moveOn : ∀ value, Moves (next value)] : Moves (recogniser >>= next) :=
  .bind moveOn

instance {condition : Prop} [Decidable condition] [moves : Moves recogniser]
    [others : Moves other] : Moves (if condition then recogniser else other) := by
  split
  · exact moves
  · exact others

theorem Holds.giveUp : Holds before Recogniser.giveUp after :=
  fun _ sound _ => ⟨⟨⟨sound.current.rest, by simp⟩, sound.behind⟩, Nat.le_refl _⟩

instance (recogniser : Recogniser α) : Moves (lookAhead recogniser) := by
  refine .of_holds fun cursor sound _ => ?_
  unfold lookAhead
  split
  · exact ⟨sound, Nat.le_refl _, trivial⟩
  · exact ⟨sound, Nat.le_refl _, trivial⟩

instance (condition : Bool) : Moves (require condition) :=
  inferInstanceAs (Moves (if condition then Pure.pure () else refuse))

instance (mayBegin : Bool) : Moves (markArrowStart mayBegin) :=
  .of_holds fun _ sound _ => ⟨⟨sound.current, sound.behind⟩, Nat.le_refl _, trivial⟩

/-- What surrounds a place makes no difference to what is left there. -/
theorem Holds.within (change : Surroundings → Surroundings)
    (holds : Holds before recogniser after)
    (blind : ∀ cursor surroundings, before cursor → before { cursor with surroundings })
    (blindAfter : ∀ value cursor surroundings, after value cursor →
      after value { cursor with surroundings }) :
    Holds before (within change recogniser) after := by
  intro cursor sound start
  have landed := holds { cursor with surroundings := change cursor.surroundings }
    ⟨sound.current, sound.behind⟩ (blind _ _ start)
  unfold Recogniser.within
  dsimp only
  split
  · rename_i equal
    rw [equal] at landed
    exact ⟨⟨landed.1.current, landed.1.behind⟩, landed.2.1, blindAfter _ _ _ landed.2.2⟩
  · rename_i equal
    rw [equal] at landed
    exact ⟨⟨landed.1.current, landed.1.behind⟩, landed.2⟩

theorem Goes.within (change : Surroundings → Surroundings)
    (goes : Goes high prior recogniser post) : Goes high prior (within change recogniser) post :=
  Holds.within change goes (fun _ _ order => order) fun _ _ _ order => order

instance [reads : Reads recogniser nodes] (change : Surroundings → Surroundings) :
    Reads (within change recogniser) nodes :=
  .of_goes fun _ => .within change (.of_reads reads)

instance (priority := low) [moves : Moves recogniser] (change : Surroundings → Surroundings) :
    Moves (within change recogniser) :=
  .of_holds (.within change moves.holds (fun _ _ _ => trivial) fun _ _ _ _ => trivial)

theorem Goes.attempt (goes : Goes high prior recogniser post) :
    Goes high prior (attempt recogniser) fun found => found.elim prior post := by
  intro cursor sound order
  have landed := goes cursor sound order
  unfold Recogniser.attempt
  split
  · rename_i equal
    rw [equal] at landed
    exact landed
  · exact ⟨sound, Nat.le_refl _, order⟩

instance [reads : Reads recogniser nodes] :
    Reads (attempt recogniser) fun found => found.elim [] nodes :=
  .of_goes fun _ => .attempt (.of_reads reads)

instance (priority := low) [moves : Moves recogniser] : Moves (attempt recogniser) := by
  have reads := moves.reads
  infer_instance

instance [reads : Reads recogniser nodes] :
    Reads (some <$> recogniser) fun found => found.elim [] nodes :=
  .of_goes fun _ => (Goes.of_reads reads).bind fun _ => .done rfl

theorem Reads.recover (reads : Reads recogniser nodes)
    (nothing : Node.coreOfAll (nodes value) = []) : Reads (recover recogniser value) nodes where
  lands cursor sound := by
    have landed := reads.lands cursor sound
    unfold Recogniser.recover
    split
    · rename_i equal
      rw [equal] at landed
      exact landed
    · rename_i equal
      rw [equal] at landed
      exact ⟨landed.1, landed.2, (InOrder.nil landed.2).of_coreOfAll (by rw [nothing]; rfl)⟩

instance [reads : Reads recogniser nodes] :
    Reads (recover (some <$> recogniser) none) fun found => found.elim [] nodes :=
  .recover inferInstance rfl

instance [first : Reads recogniser nodes] [second : Reads other nodes] :
    Reads (firstOf recogniser other) nodes where
  lands cursor sound := by
    have landed := first.lands cursor sound
    have otherwise := second.lands cursor sound
    unfold firstOf
    split
    · rename_i equal
      rw [equal] at landed
      exact landed
    · rename_i equal
      rw [equal] at landed
      split
      · rename_i same
        rw [same] at otherwise
        exact otherwise
      · exact landed

instance [reads : Reads recogniser nodes] : Reads (orGiveUp recogniser) nodes where
  lands cursor sound := by
    have landed := reads.lands cursor sound
    unfold orGiveUp
    split
    · rename_i equal
      rw [equal] at landed
      exact landed
    · rename_i equal
      rw [equal] at landed
      exact ⟨⟨⟨landed.1.current.rest, by simp⟩, landed.1.behind⟩, landed.2⟩

theorem Holds.iterate (along : σ → Cursor → Prop) {step : σ → Recogniser (σ ⊕ α)}
    (steps : ∀ state, Holds (along state) (step state) (Sum.elim along after)) (state : σ) :
    Holds (along state) (iterate state step) after := by
  have repeats : ∀ fuel state, Holds (along state) (repeatFrom step fuel state) after := by
    intro fuel
    induction fuel with
    | zero => exact fun _ => Holds.refuse
    | succ fuel ih =>
        intro state
        refine (steps state).bind fun taken => ?_
        cases taken with
        | inl state => exact ih state
        | inr value => exact Holds.pure fun _ reached => reached
  exact (Holds.ask Cursor.size).bind fun _ cursor sound start =>
    repeats _ state cursor sound start.2

/-- A repetition reads what its steps read, if each of them adds its nodes to those of the
state. -/
theorem Goes.iterate (along : σ → List Node) {step : σ → Recogniser (σ ⊕ α)}
    (steps : ∀ state, Goes high (along state) (step state) (Sum.elim along post)) (state : σ) :
    Goes high (along state) (iterate state step) post := by
  refine Holds.iterate (fun state cursor => InOrder high cursor.left (along state)) ?_ state
  intro state cursor sound start
  refine (steps state cursor sound start).weaken fun taken _ _ _ reached => ?_
  cases taken with
  | inl state => exact reached
  | inr value => exact reached

instance {step : σ → Recogniser (σ ⊕ α)} [steps : ∀ state, Moves (step state)] (state : σ) :
    Moves (iterate state step) := by
  refine .of_holds (Holds.iterate (fun _ _ => True) ?_ state)
  intro state cursor sound start
  refine ((steps state).lands cursor sound).weaken fun taken _ _ _ _ => ?_
  cases taken with
  | inl state => trivial
  | inr value => trivial

/-- A repetition from nothing on. -/
theorem Reads.of_steps (along : σ → List Node) {step : σ → Recogniser (σ ⊕ α)} {state : σ}
    (nothing : along state = [])
    (steps : ∀ high state, Goes high (along state) (step state) (Sum.elim along nodes)) :
    Reads (iterate state step) nodes := by
  refine .of_goes fun high => ?_
  have goes := Goes.iterate along (steps high) state
  rwa [nothing] at goes

/-- A repetition that gathers nodes. -/
theorem Goes.gather (along : List Node → List Node) (nothing : along [] = [])
    {step : List Node → Recogniser (List Node ⊕ List Node)} {next : List Node → Recogniser β}
    (steps : ∀ high read, Goes high (along read) (step read) (Sum.elim along id))
    (second : ∀ items, Goes high (prior ++ items) (next items) whole) :
    Goes high prior (Recogniser.iterate [] step >>= next) whole :=
  (of_reads (.of_steps along nothing steps)).bind second

/-! ## Tokens -/

theorem lands_continueAfter {cursor : Cursor} {rest : List Char}
    (fits : rest.length ≤ cursor.left) :
    (continueAfter rest cursor).Lands cursor fun _ place => place.behind = rest := by
  obtain ⟨sound, shorter⟩ := Lexeme.sound_next cursor.size false rest
  exact ⟨⟨sound, shorter⟩, Nat.le_trans shorter fits, rfl⟩

theorem lands_advance {cursor : Cursor} (sound : cursor.Sound) :
    (advance cursor).Lands cursor fun _ place => place.behind = cursor.current.rest :=
  lands_continueAfter sound.current.rest

instance : Moves advance :=
  .of_holds fun _ sound _ => (lands_advance sound).weaken fun _ _ _ _ _ => trivial

instance : Moves token :=
  inferInstanceAs (Moves (ask _))

instance : Moves afterNewline :=
  inferInstanceAs (Moves (ask _))

instance : Moves peek :=
  inferInstanceAs (Moves (ask _))

instance : Moves mayBeArrow :=
  inferInstanceAs (Moves (ask _))

instance (text : String) : Moves (isPunct text) := by
  unfold isPunct
  infer_instance

instance (texts : List String) : Moves (isAnyPunct texts) := by
  refine .bind fun token => ?_
  split
  · infer_instance
  · infer_instance

instance (name : String) : Moves (isWord name) := by
  refine .bind fun token => ?_
  split
  · infer_instance
  · infer_instance

instance (names : List String) : Moves (isAnyWord names) := by
  refine .bind fun token => ?_
  split
  · infer_instance
  · infer_instance

instance (text : String) : Moves (eat text) := by
  unfold eat
  infer_instance

instance (condition : Bool) (text : String) : Moves (eatIf condition text) := by
  unfold eatIf
  infer_instance

instance (name : String) : Moves (eatWord name) := by
  unfold eatWord
  infer_instance

instance (text : String) : Moves (expect text) := by
  unfold expect
  infer_instance

instance (name : String) : Moves (expectWord name) := by
  unfold expectWord
  infer_instance

instance : Moves atEnd := by
  unfold atEnd
  infer_instance

instance : Moves statementMayEnd := by
  refine .bind fun token => ?_
  split
  · infer_instance
  · infer_instance
  · infer_instance
  · infer_instance

instance : Moves eatSemicolon := by
  unfold eatSemicolon
  infer_instance

instance : Moves expectSemicolon := by
  unfold expectSemicolon
  infer_instance

instance : Moves anyName := by
  refine .bind fun token => ?_
  split
  · infer_instance
  · infer_instance

instance : Moves isOpenAngle := by
  unfold isOpenAngle
  infer_instance

instance : Moves expectOpenAngle := by
  refine .of_holds ((Holds.ask fun cursor => cursor.current.token).bind fun token => ?_)
  split
  · exact fun cursor sound _ => Moves.lands cursor sound
  · have cut : Holds (fun cursor => .punct "<<" = cursor.current.token ∧ True) (cutToken "<")
        fun _ _ => True := by
      intro cursor sound here
      have longer := sound.current.punct _ here.1.symm
      refine ⟨⟨⟨?_, ?_⟩, sound.behind⟩, Nat.le_refl _, trivial⟩
      · simp
      · simp only [List.length_drop]
        omega
    exact cut.bind fun _ => Moves.holds inferInstance
  · exact Holds.refuse

instance (allowed : List String) (stopAtStaticBlock : Bool) :
    Moves (modifier? allowed stopAtStaticBlock) := by
  refine .bind fun token => ?_
  split
  · infer_instance
  · infer_instance

instance : Moves eatModifier := by
  unfold eatModifier
  infer_instance

/-- A recogniser that stays where it is and answers with a text no longer than what is left. -/
class Sees (recogniser : Recogniser α) (text : outParam (α → List Char)) : Prop where
  lands : ∀ cursor, cursor.Sound →
    (recogniser cursor).Lands cursor fun value place =>
      place = cursor ∧ (text value).length ≤ cursor.left

theorem Sees.of_ask {property : Cursor → α} {text : α → List Char}
    (fits : ∀ cursor, cursor.Sound → (text (property cursor)).length ≤ cursor.left) :
    Sees (ask property) text where
  lands cursor sound := ⟨sound, Nat.le_refl _, rfl, fits cursor sound⟩

instance : Sees here id :=
  .of_ask fun _ _ => Nat.le_refl _

instance : Sees ahead id :=
  .of_ask fun _ sound => sound.current.rest

instance (priority := low) {text : α → List Char} [sees : Sees recogniser text] :
    Moves recogniser where
  lands cursor sound := (sees.lands cursor sound).weaken fun _ _ _ _ _ => trivial

/-- A recogniser goes where a text is at hand. -/
def GoesFrom (text : List Char) (high : Nat) (prior : List Node) (recogniser : Recogniser α)
    (post : α → List Node) : Prop :=
  Holds (fun cursor => text.length ≤ cursor.left ∧ InOrder high cursor.left prior) recogniser
    fun value cursor => InOrder high cursor.left (post value)

/-- A step that sees a text. -/
theorem Goes.see {text : α → List Char} [sees : Sees recogniser text]
    (second : ∀ value, GoesFrom (text value) high prior (next value) whole) :
    Goes high prior (recogniser >>= next) whole := by
  have first : Holds (fun cursor => InOrder high cursor.left prior) recogniser
      fun value cursor => (text value).length ≤ cursor.left ∧ InOrder high cursor.left prior := by
    intro cursor sound order
    refine (sees.lands cursor sound).weaken ?_
    rintro value _ _ _ ⟨rfl, fits⟩
    exact ⟨fits, order⟩
  exact first.bind second

namespace GoesFrom

variable {text rest : List Char} {more : Unit → Recogniser β}

/-- The text does not matter any more. -/
theorem away (goes : Goes high prior recogniser post) : GoesFrom text high prior recogniser post :=
  goes.since fun _ _ start => start.2

/-- Reading goes on behind a part of the text. -/
theorem onward (fits : rest.length ≤ text.length) (second : Goes high prior (more ()) whole) :
    GoesFrom text high prior (continueAfter rest >>= more) whole := by
  have first : Holds (fun cursor => text.length ≤ cursor.left ∧ InOrder high cursor.left prior)
      (continueAfter rest) fun _ cursor => InOrder high cursor.left prior := by
    rintro cursor _ ⟨atHand, order⟩
    refine (lands_continueAfter (Nat.le_trans fits atHand)).weaken ?_
    exact fun _ _ _ forwards _ => order.widen (Nat.le_refl _) forwards
  exact first.bind fun _ => second

theorem require {condition : Bool} (second : GoesFrom text high prior (more ()) whole) :
    GoesFrom text high prior (Recogniser.require condition >>= more) whole := by
  cases condition with
  | false => exact Holds.refuse
  | true => exact second

end GoesFrom

instance (close : String) : Moves (commaBefore close) := by
  unfold commaBefore
  infer_instance

instance (close : String) (step : List α → Recogniser (List α)) [∀ read, Moves (step read)] :
    Moves (readUntil close step) := by
  unfold readUntil
  infer_instance

instance (close : String) (item : Recogniser Node) [Moves item] : Moves (listUntil close item) := by
  unfold listUntil
  infer_instance

/-- A recogniser that reads nodes, and then a token that ends them. -/
class Closes (recogniser : Recogniser α) (nodes : outParam (α → List Node)) : Prop where
  lands : ∀ cursor, cursor.Sound →
    (recogniser cursor).Lands cursor fun value place =>
      InOrder cursor.left (place.behind.length + 1) (nodes value)

instance Closes.reads [closes : Closes recogniser nodes] : Reads recogniser nodes where
  lands cursor sound := (closes.lands cursor sound).weaken fun _ _ sound _ order =>
    order.widen (Nat.le_refl _) (Nat.le_succ_of_le sound.behind)

theorem Holds.isPunct (text : String) :
    Holds before (isPunct text) fun found cursor =>
      found = (cursor.current.token == .punct text) ∧ before cursor :=
  fun _ sound start => ⟨sound, Nat.le_refl _, rfl, start⟩

theorem Holds.eat (text : String) :
    Holds (fun cursor => InOrder high cursor.left prior) (eat text) fun found cursor =>
      InOrder high cursor.left prior ∧
        (found = true → InOrder high (cursor.behind.length + 1) prior) := by
  refine (Holds.isPunct text).bind fun found => ?_
  split
  · rename_i here
    have closed : Holds (fun cursor => found = (cursor.current.token == .punct text) ∧
        InOrder high cursor.left prior) advance
        fun _ cursor => InOrder high (cursor.behind.length + 1) prior := by
      rintro cursor sound ⟨there, order⟩
      have shorter := sound.current.punct text (beq_iff_eq.mp (there.symm.trans here))
      refine (lands_advance sound).weaken fun _ place _ _ behind => ?_
      exact order.widen (Nat.le_refl _) (by rw [behind]; exact shorter)
    refine closed.bind fun _ cursor sound order => ?_
    refine ⟨sound, Nat.le_refl _, ?_, fun _ => order⟩
    exact order.widen (Nat.le_refl _) (Nat.le_succ_of_le sound.behind)
  · exact .pure fun _ there => ⟨there.2, by simp⟩

theorem Closes.within (closes : Closes recogniser nodes) (change : Surroundings → Surroundings) :
    Closes (within change recogniser) nodes where
  lands cursor sound := by
    have holds : Holds (fun place => place.left = cursor.left) recogniser fun value place =>
        InOrder cursor.left (place.behind.length + 1) (nodes value) := by
      intro place sound same
      rw [← same]
      exact closes.lands place sound
    exact Holds.within change holds (fun _ _ same => same) (fun _ _ _ order => order) cursor sound
      rfl

theorem Closes.behind {first : Recogniser β} [moves : Moves first]
    (closes : Closes recogniser nodes) : Closes (first >>= fun _ => recogniser) nodes where
  lands cursor sound := by
    have holds : Holds (fun place => place.left ≤ cursor.left) recogniser fun value place =>
        InOrder cursor.left (place.behind.length + 1) (nodes value) :=
      fun place sound forwards => (closes.lands place sound).weaken
        fun _ _ _ _ order => order.widen forwards (Nat.le_refl _)
    have start : Holds (fun place => place.left ≤ cursor.left) first fun _ place =>
        place.left ≤ cursor.left :=
      fun place sound forwards => (moves.lands place sound).weaken
        fun _ _ _ onward _ => Nat.le_trans onward forwards
    exact start.bind (fun _ => holds) cursor sound (Nat.le_refl _)

theorem Closes.of_steps {close : String} {step : List α → Recogniser (List α)} (node : α → Node)
    (steps : ∀ high read, Goes high (read.reverse.map node) (step read)
      fun read => read.reverse.map node) :
    Closes (readUntil close step) fun items => items.map node where
  lands cursor sound := by
    refine Holds.iterate (fun read place => InOrder cursor.left place.left (read.reverse.map node))
      (fun read => ?_) [] cursor sound (.nil (Nat.le_refl _))
    refine (Holds.eat close).bind fun found => ?_
    split
    · rename_i closed
      exact .pure fun _ order => order.2 closed
    · refine ((steps cursor.left read).since fun _ _ order => order.1).bind fun read => ?_
      exact .pure fun _ order => order

/-- A repetition up to a closing punctuator that reads nodes. -/
theorem Closes.of_reverse {close : String} {step : List Node → Recogniser (List Node)}
    (steps : ∀ high read, Goes high read.reverse (step read) List.reverse) :
    Closes (readUntil close step) id := by
  have closes : Closes (readUntil close step) (List.map id) :=
    .of_steps id fun high read => by simpa using steps high read
  rwa [List.map_id_fun] at closes

theorem Goes.until {close : String} {step : List Node → Recogniser (List Node)}
    {next : List Node → Recogniser β}
    (steps : ∀ high read, Goes high read.reverse (step read) List.reverse)
    (second : ∀ items, Goes high (prior ++ items) (next items) whole) :
    Goes high prior (readUntil close step >>= next) whole :=
  (of_reads (Closes.of_reverse steps).reads).bind second

instance (close : String) (item : Recogniser Node) [Reads item fun node => [node]] :
    Closes (listUntil close item) id :=
  .of_reverse fun _ _ => .read fun node => .on fun _ => .done (by simp)

/-- What begins at a place is in order from there on. -/
theorem Goes.here {next : List Char → Recogniser β}
    (second : ∀ start : List Char, Goes start.length [] (next start) whole) :
    Goes high [] (Recogniser.here >>= next) whole :=
  fun cursor sound order => (second _ cursor sound (.nil (Nat.le_refl _))).weaken
    fun _ _ _ _ behind => behind.widen order.le (Nat.le_refl _)

/-- A call whose arguments have just been closed. -/
theorem Goes.call {start : List Char} {callee : Node} {next : α → List Char → Recogniser β}
    [closes : Closes recogniser nodes] (arguments : α → List Node) (types : List Node)
    (same : ∀ value, Node.coreOfAll (arguments value) = Node.coreOfAll (nodes value))
    (asides : ∀ type ∈ types, type.isAside = true)
    (second : ∀ value stop,
      Goes start.length [.call start stop callee (arguments value) types] (next value stop) whole) :
    Goes start.length [callee]
      (do let value ← recogniser; let stop ← behind; next value stop) whole := by
  have closed : Holds (fun cursor => InOrder start.length cursor.left [callee]) recogniser
      fun value cursor =>
        InOrder start.length (cursor.behind.length + 1) (callee :: arguments value) :=
    fun cursor sound order => (closes.lands cursor sound).weaken
      fun value _ _ _ inside => order.append (inside.of_coreOfAll (same value))
  refine closed.bind fun value => (Holds.ask Cursor.behind).bind fun stop => ?_
  refine (second value stop).since ?_
  rintro cursor sound ⟨rfl, inside⟩
  exact .call (Nat.le_refl _) sound.behind inside asides (.nil (Nat.le_refl _))

/-- A call gives way to its parts. -/
theorem Goes.parts {start stop : List Char} {callee : Node} {arguments types : List Node}
    (goes : Goes high (callee :: arguments) recogniser post) :
    Goes high [.call start stop callee arguments types] recogniser post :=
  goes.since fun _ _ order => order.parts_of_call

end Recogniser
end Phrasebook.Source
