import Phrasebook.Proofs.Session.Coverage
import Phrasebook.Visit

/-!
# The life of a session

A session and the files around it change by turns: the session takes a step, or somebody
else changes the files.  Whatever the turns are, the session moves through its phases in one
direction, takes its locales from the files once, is left alone by a step that fails, and
does nothing more once it was left.
-/

namespace Phrasebook

/-- How far a phase is from the first one. -/
def Phase.rank : Phase → Nat
  | .uninitialized => 0
  | .loaded => 1
  | .accumulating => 2
  | .flushed => 3

theorem Phase.rank_le (phase : Phase) : phase.rank ≤ Phase.flushed.rank := by
  cases phase <;> decide

namespace Session

open Catalog

/-- A step of a session, or a change of the files by somebody else. -/
inductive Action where
  | enter
  | register (call : CallSite)
  | visit (file : Source.File)
  | exit
  | disk (tree : FileTree)

/-- A session with the files at hand. -/
structure Setting where
  session : Session
  tree : FileTree

namespace Setting

/-- What an action leaves behind. -/
def act (setting : Setting) : Action → Setting
  | .enter => { setting with session := (setting.session.enter setting.tree).session }
  | .register call =>
      { setting with session := (setting.session.register setting.tree call).session }
  | .visit file =>
      { setting with session := (setting.session.visitFile setting.tree file).session }
  | .exit =>
      ⟨(setting.session.exit setting.tree).session, (setting.session.exit setting.tree).tree⟩
  | .disk tree => { setting with tree }

/-- Whether an action succeeds or why it fails. -/
def answer (setting : Setting) : Action → Except SessionError Unit
  | .enter => (setting.session.enter setting.tree).result
  | .register call => (setting.session.register setting.tree call).result
  | .visit file => (setting.session.visitFile setting.tree file).result
  | .exit => (setting.session.exit setting.tree).result.map fun _ => ()
  | .disk _ => .ok ()

/-- What actions leave behind, one after the other. -/
def run (setting : Setting) (actions : List Action) : Setting :=
  actions.foldl act setting

@[simp] theorem run_nil (setting : Setting) : setting.run [] = setting :=
  rfl

@[simp] theorem run_cons (setting : Setting) (action : Action) (rest : List Action) :
    setting.run (action :: rest) = (setting.act action).run rest :=
  rfl

theorem run_append (setting : Setting) (first second : List Action) :
    setting.run (first ++ second) = (setting.run first).run second :=
  List.foldl_append ..

end Setting

variable {session before after later : Session} {tree other : FileTree} {call : CallSite}
variable {error : SessionError} {store : LocaleStore}

theorem enter_of_error (failed : (session.enter tree).result = .error error) :
    (session.enter tree).session = session := by
  rcases enter_cases session tree with
    ⟨_, fails⟩ | ⟨_, _, _, _, fails⟩ | ⟨_, _, _, again⟩ | ⟨_, _, _, _, _, loads⟩
  · rw [fails]
    rfl
  · rw [fails]
    rfl
  · rw [again]
    rfl
  · rw [loads] at failed
    cases failed

theorem register_of_error (failed : (session.register tree call).result = .error error) :
    (session.register tree call).session = session := by
  rcases register_cases session tree call with ⟨error', entered, same⟩ | ⟨_, _, _, _, done⟩
  · rw [same]
    exact enter_of_error entered
  · rw [done] at failed
    cases failed

/-- A session that is loaded and was not left. -/
structure Running (session : Session) : Prop where
  notLeft : session.phase ≠ .flushed
  loaded : ∃ catalog, session.catalog = some catalog

theorem running_merge (session : Session) (catalog : Catalog) (call : CallSite) :
    Running (session.merge catalog call) := by
  obtain ⟨counts, calls, merged⟩ := session.merge_eq catalog call
  rw [merged]
  exact ⟨by simp, ⟨_, rfl⟩⟩

theorem running_register (done : (session.register tree call).result = .ok ()) :
    Running (session.register tree call).session := by
  obtain ⟨catalog, _, _, merged⟩ := register_of_ok done
  rw [merged]
  exact running_merge ..

theorem enter_of_running (running : Running session) (tree : FileTree) :
    session.enter tree = session.done := by
  obtain ⟨catalog, loaded⟩ := running.loaded
  simp [enter, running.notLeft, loaded]

theorem register_of_running (running : Running session) (tree : FileTree) (call : CallSite) :
    (session.register tree call).result = .ok () := by
  rcases register_cases session tree call with ⟨error, entered, _⟩ | ⟨_, _, _, _, done⟩
  · rw [enter_of_running running] at entered
    cases entered
  · exact done

theorem registerAll_of_register (registered : (session.register tree call).result = .ok ())
    (rest : List CallSite) :
    (session.registerAll tree (call :: rest)).session =
        ((session.register tree call).session.registerAll tree rest).session ∧
      (session.registerAll tree (call :: rest)).result =
        ((session.register tree call).session.registerAll tree rest).result := by
  rw [registerAll, Step.andThen, registered]
  exact ⟨rfl, rfl⟩

theorem registerAll_of_failed (failed : (session.register tree call).result = .error error)
    (rest : List CallSite) :
    session.registerAll tree (call :: rest) = session.register tree call := by
  rw [registerAll, Step.andThen, failed]

theorem registerAll_of_running (running : Running session) (tree : FileTree)
    (calls : List CallSite) : (session.registerAll tree calls).result = .ok () := by
  induction calls generalizing session with
  | nil => rfl
  | cons call rest ih =>
      have registered := register_of_running running tree call
      rw [(registerAll_of_register registered rest).2]
      exact ih (running_register registered)

/-- Only the first of some calls can fail to be registered. -/
theorem registerAll_of_error {calls : List CallSite}
    (failed : (session.registerAll tree calls).result = .error error) :
    (session.registerAll tree calls).session = session := by
  cases calls with
  | nil => cases failed
  | cons call rest =>
      cases registered : (session.register tree call).result with
      | error error' =>
          rw [registerAll_of_failed registered]
          exact register_of_error registered
      | ok _ =>
          rw [(registerAll_of_register registered rest).2,
            registerAll_of_running (running_register registered)] at failed
          cases failed

/-- A step that fails changes nothing, unless it leaves the session. -/
theorem act_of_error {setting : Setting} {action : Action} (stays : action ≠ .exit)
    (failed : setting.answer action = .error error) : setting.act action = setting := by
  cases action with
  | enter => rw [Setting.act, enter_of_error failed]
  | register call => rw [Setting.act, register_of_error failed]
  | visit file => rw [Setting.act, visitFile, registerAll_of_error failed]
  | exit => exact absurd rfl stays
  | disk tree => cases failed

/-- Calls registered together are registered one after the other, each with success. -/
theorem registerAll_of_ok {calls : List CallSite}
    (done : (session.registerAll tree calls).result = .ok ()) :
    ⟨(session.registerAll tree calls).session, tree⟩ =
        (Setting.mk session tree).run (calls.map .register) ∧
      ∀ front call back, calls = front ++ call :: back →
        ((Setting.mk session tree).run (front.map .register)).answer (.register call) = .ok () := by
  induction calls generalizing session with
  | nil => simp [registerAll, Session.done]
  | cons first rest ih =>
      cases registered : (session.register tree first).result with
      | error error =>
          rw [registerAll_of_failed registered, registered] at done
          cases done
      | ok _ =>
          obtain ⟨sameSession, sameResult⟩ := registerAll_of_register registered rest
          rw [sameResult] at done
          obtain ⟨runs, each⟩ := ih done
          constructor
          · rw [sameSession, runs]
            rfl
          · intro front call back split
            cases front with
            | nil =>
                obtain ⟨rfl, rfl⟩ := List.cons.inj split
                exact registered
            | cons head front =>
                obtain ⟨rfl, rest⟩ := List.cons.inj split
                exact each front call back rest

theorem enter_of_loaded (loaded : session.catalog.isSome) (tree other : FileTree) :
    session.enter tree = session.enter other := by
  simp [enter, loaded]

theorem register_of_loaded (loaded : session.catalog.isSome) (tree other : FileTree)
    (call : CallSite) : session.register tree call = session.register other call := by
  rw [register, enter_of_loaded loaded tree other, ← register]

theorem registerAll_of_loaded (loaded : session.catalog.isSome) (tree other : FileTree)
    (calls : List CallSite) : session.registerAll tree calls = session.registerAll other calls := by
  induction calls generalizing session with
  | nil => rfl
  | cons call rest ih =>
      rw [registerAll, registerAll, register_of_loaded loaded tree other]
      unfold Step.andThen
      cases registered : (session.register other call).result with
      | error error => rfl
      | ok _ =>
          obtain ⟨catalog, held⟩ := (running_register registered).loaded
          have same := @ih (session.register other call).session (by simp [held])
          simp only [same]

/-- A session with a catalog does not look at the files again, until it is left. -/
theorem act_of_loaded {setting : Setting} (loaded : setting.session.catalog ≠ none)
    {action : Action} (stays : action ≠ .exit) (other : FileTree) :
    (Setting.act ⟨setting.session, other⟩ action).session = (setting.act action).session ∧
      Setting.answer ⟨setting.session, other⟩ action = setting.answer action := by
  have held : setting.session.catalog.isSome := Option.isSome_iff_ne_none.mpr loaded
  cases action with
  | enter => simp [Setting.act, Setting.answer, enter_of_loaded held other setting.tree]
  | register call =>
      simp [Setting.act, Setting.answer, register_of_loaded held other setting.tree]
  | visit file =>
      simp [Setting.act, Setting.answer, visitFile,
        registerAll_of_loaded held other setting.tree]
  | exit => exact absurd rfl stays
  | disk tree => exact ⟨rfl, rfl⟩

/-! ## Sessions that go on -/

/-- What holds between a session and what it becomes.  Without a catalog it has not begun,
or is over; with one it keeps its translations and expansions, whatever is merged. -/
structure Advances (before after : Session) : Prop where
  options : after.options = before.options
  phase : before.phase.rank ≤ after.phase.rank
  paired : after.catalog = none → after.phase = .uninitialized ∨ after.phase = .flushed
  catalog : ∀ catalog, before.catalog = some catalog →
    ∃ later, after.catalog = some later ∧ later.inputs = catalog.inputs ∧
      later.expansions = catalog.expansions

namespace Advances

theorem trans (first : Advances before after) (second : Advances after later) :
    Advances before later where
  options := second.options.trans first.options
  phase := Nat.le_trans first.phase second.phase
  paired := second.paired
  catalog := by
    intro catalog held
    obtain ⟨middle, held, inputs, expansions⟩ := first.catalog catalog held
    obtain ⟨last, held, inputs', expansions'⟩ := second.catalog middle held
    exact ⟨last, held, inputs'.trans inputs, expansions'.trans expansions⟩

theorem refl (paired : session.catalog = none →
    session.phase = .uninitialized ∨ session.phase = .flushed) : Advances session session :=
  ⟨rfl, Nat.le_refl _, paired, fun catalog held => ⟨catalog, held, rfl, rfl⟩⟩

theorem start (options : Options) : Advances (start options) (Session.start options) :=
  refl fun _ => .inl rfl

theorem again (advances : Advances before after) : Advances after after :=
  refl advances.paired

end Advances

theorem advances_enter (before : Advances session session) (tree : FileTree) :
    Advances session (session.enter tree).session := by
  rcases enter_session session tree with same | ⟨store, _, unloaded, equal⟩
  · rwa [same]
  · cases left : decide (session.phase = .flushed) with
    | true =>
        have flushed : session.phase = .flushed := by simpa using left
        simpa [enter, flushed, failed] using before
    | false =>
        have begun : session.phase = .uninitialized :=
          (before.paired unloaded).resolve_right (by simpa using left)
        rw [equal]
        refine ⟨rfl, ?_, by simp, ?_⟩
        · simp [begun, Phase.rank]
        · intro catalog held
          rw [unloaded] at held
          cases held

theorem advances_merge {catalog : Catalog} (loaded : session.catalog = some catalog)
    (running : session.phase ≠ .flushed) (call : CallSite) :
    Advances session (session.merge catalog call) := by
  obtain ⟨counts, calls, merged⟩ := session.merge_eq catalog call
  obtain ⟨sameInputs, sameExpansions⟩ := inputs_apply catalog call.key.operation
  rw [merged]
  refine ⟨rfl, ?_, by simp, ?_⟩
  · cases phase : session.phase with
    | flushed => exact absurd phase running
    | _ => simp [Phase.rank]
  · intro held found
    obtain rfl : catalog = held := Option.some.inj (loaded.symm.trans found)
    exact ⟨_, rfl, sameInputs, sameExpansions⟩

theorem advances_register (before : Advances session session) (tree : FileTree)
    (call : CallSite) : Advances session (session.register tree call).session := by
  have entered := advances_enter before tree
  rcases register_session session tree call with same | ⟨catalog, loaded, running, equal⟩
  · rwa [same]
  · rw [equal]
    exact entered.trans (advances_merge loaded running call)

theorem advances_registerAll (before : Advances session session) (tree : FileTree)
    (calls : List CallSite) : Advances session (session.registerAll tree calls).session := by
  induction calls generalizing session with
  | nil => exact before
  | cons call rest ih =>
      have registered := advances_register before tree call
      cases result : (session.register tree call).result with
      | error error => rwa [registerAll_of_failed result]
      | ok _ =>
          rw [(registerAll_of_register result rest).1]
          exact registered.trans (ih registered.again)

theorem advances_exit (session : Session) (tree : FileTree) :
    Advances session (session.exit tree).session := by
  obtain ⟨catalog, equal, marked⟩ := exit_session session tree
  rw [equal]
  refine ⟨rfl, Phase.rank_le _, fun _ => .inr rfl, ?_⟩
  intro held found
  rcases marked with rfl | rfl
  · exact ⟨held, found, rfl, rfl⟩
  · exact ⟨held.markClean, by simp [found], rfl, rfl⟩

theorem advances_act {setting : Setting} (before : Advances setting.session setting.session)
    (action : Action) : Advances setting.session (setting.act action).session := by
  cases action with
  | enter => exact advances_enter before setting.tree
  | register call => exact advances_register before setting.tree call
  | visit file => exact advances_registerAll before setting.tree _
  | exit => exact advances_exit setting.session setting.tree
  | disk tree => exact before

theorem advances_run {setting : Setting} (before : Advances setting.session setting.session)
    (actions : List Action) : Advances setting.session (setting.run actions).session := by
  induction actions generalizing setting with
  | nil => exact before
  | cons action rest ih =>
      have acted := advances_act before action
      exact acted.trans (ih acted.again)

/-- A session has the translations and expansions of a store, whatever was merged. -/
def Keeps (session : Session) (store : LocaleStore) : Prop :=
  ∃ catalog, session.catalog = some catalog ∧ catalog.inputs = store.locales ∧
    catalog.expansions = expansionsOf store session.options.unknownKeys

theorem Advances.keeps (advances : Advances before after) (kept : Keeps before store) :
    Keeps after store := by
  obtain ⟨catalog, held, inputs, expansions⟩ := kept
  obtain ⟨later, held, inputs', expansions'⟩ := advances.catalog catalog held
  refine ⟨later, held, inputs'.trans inputs, ?_⟩
  rw [expansions', expansions, advances.options]

theorem Advances.unloaded (advances : Advances before after) (unloaded : after.catalog = none) :
    before.catalog = none := by
  cases held : before.catalog with
  | none => rfl
  | some catalog =>
      obtain ⟨later, found, _⟩ := advances.catalog catalog held
      rw [unloaded] at found
      cases found

theorem keeps_enter (unloaded : session.catalog = none)
    (loaded : (session.enter tree).session.catalog ≠ none) :
    ∃ store, LocaleStore.load tree session.options.localesDir = .ok store ∧
      Keeps (session.enter tree).session store := by
  rcases enter_session session tree with same | ⟨store, found, _, equal⟩
  · rw [same] at loaded
    exact absurd unloaded loaded
  · refine ⟨store, found, ?_⟩
    rw [equal]
    exact ⟨_, rfl, inputs_ofStore .., rfl⟩

theorem keeps_register (unloaded : session.catalog = none)
    (loaded : (session.register tree call).session.catalog ≠ none) :
    ∃ store, LocaleStore.load tree session.options.localesDir = .ok store ∧
      Keeps (session.register tree call).session store := by
  rcases register_session session tree call with same | ⟨catalog, held, running, equal⟩
  · rw [same] at loaded ⊢
    exact keeps_enter unloaded loaded
  · have entered : (session.enter tree).session.catalog ≠ none := by simp [held]
    obtain ⟨store, found, kept⟩ := keeps_enter unloaded entered
    rw [equal]
    exact ⟨store, found, (advances_merge held running call).keeps kept⟩

theorem keeps_registerAll (before : Advances session session) (unloaded : session.catalog = none)
    {calls : List CallSite} (loaded : (session.registerAll tree calls).session.catalog ≠ none) :
    ∃ store, LocaleStore.load tree session.options.localesDir = .ok store ∧
      Keeps (session.registerAll tree calls).session store := by
  cases calls with
  | nil => exact absurd unloaded loaded
  | cons call rest =>
      cases result : (session.register tree call).result with
      | error error =>
          rw [registerAll_of_failed result] at loaded ⊢
          exact keeps_register unloaded loaded
      | ok _ =>
          obtain ⟨catalog, held⟩ := (running_register result).loaded
          have first : (session.register tree call).session.catalog ≠ none := by simp [held]
          obtain ⟨store, found, kept⟩ := keeps_register unloaded first
          have registered := advances_register before tree call
          rw [(registerAll_of_register result rest).1]
          exact ⟨store, found, (advances_registerAll registered.again tree rest).keeps kept⟩

/-- An action that gives a session its catalog takes it from the files at hand. -/
theorem keeps_act {setting : Setting} (before : Advances setting.session setting.session)
    {action : Action} (unloaded : setting.session.catalog = none)
    (loaded : (setting.act action).session.catalog ≠ none) :
    ∃ store, LocaleStore.load setting.tree setting.session.options.localesDir = .ok store ∧
      Keeps (setting.act action).session store := by
  cases action with
  | enter => exact keeps_enter unloaded loaded
  | register call => exact keeps_register unloaded loaded
  | visit file => exact keeps_registerAll before unloaded loaded
  | exit =>
      obtain ⟨catalog, equal, marked⟩ := exit_session setting.session setting.tree
      have none : catalog = none := by
        rcases marked with rfl | rfl <;> simp [unloaded]
      exact absurd (by rw [Setting.act, equal, none]) loaded
  | disk tree => exact absurd unloaded loaded

/-- A session with a catalog got it by one action of its run, from the files of that
moment.  It had none before and keeps what it got ever after. -/
theorem exists_loading {options : Options} (tree : FileTree) (actions : List Action)
    (loaded : ((Setting.mk (start options) tree).run actions).session.catalog ≠ none) :
    ∃ front action back store, actions = front ++ action :: back ∧
      (∀ less, less <+: front →
        ((Setting.mk (start options) tree).run less).session.catalog = none) ∧
      LocaleStore.load ((Setting.mk (start options) tree).run front).tree options.localesDir =
        .ok store ∧
      ∀ more, Keeps ((Setting.mk (start options) tree).run (front ++ action :: more)).session
        store := by
  induction actions using List.reverseRecOn with
  | nil => exact absurd rfl loaded
  | append_singleton earlier action ih =>
      by_cases unloaded : ((Setting.mk (start options) tree).run earlier).session.catalog = none
      · have begun := Advances.start options
        have advances := @advances_run ⟨start options, tree⟩ begun earlier
        rw [Setting.run_append] at loaded
        obtain ⟨store, found, kept⟩ := keeps_act advances.again unloaded loaded
        rw [advances.options] at found
        refine ⟨earlier, action, [], store, rfl, ?_, found, ?_⟩
        · rintro less ⟨rest, rfl⟩
          rw [Setting.run_append] at unloaded
          have went := @advances_run ⟨start options, tree⟩ begun less
          exact (advances_run went.again rest).unloaded unloaded
        · intro more
          rw [Setting.run_append, Setting.run_cons]
          exact (advances_run (advances_act advances.again action).again more).keeps kept
      · obtain ⟨front, first, back, store, rfl, none, found, kept⟩ := ih unloaded
        exact ⟨front, first, back ++ [action], store, by simp, none, found, kept⟩

/-- A session that was left refuses everything and stays as it is. -/
theorem act_of_flushed {setting : Setting} (flushed : setting.session.phase = .flushed) :
    (∀ action ∈ [Action.enter, Action.exit],
        setting.answer action = .error .alreadyFlushed ∧ setting.act action = setting) ∧
      ∀ call, setting.answer (.register call) = .error .alreadyFlushed ∧
        setting.act (.register call) = setting := by
  obtain ⟨session, tree⟩ := setting
  dsimp only at flushed
  have entering : session.enter tree = session.failed .alreadyFlushed := by
    rw [enter, if_pos flushed]
  have leaving : session.exit tree = ⟨session, tree, .error .alreadyFlushed, []⟩ := by
    rw [exit, if_pos flushed]
  refine ⟨?_, fun call => ?_⟩
  · simp [Setting.answer, Setting.act, entering, leaving, failed, Except.map]
  · simp [Setting.answer, Setting.act, register, entering, failed, Step.andThen]

theorem flushed_of_exit {options : Options} (tree : FileTree) {actions : List Action}
    (left : .exit ∈ actions) :
    ((Setting.mk (start options) tree).run actions).session.phase = .flushed := by
  obtain ⟨front, back, rfl⟩ := List.append_of_mem left
  rw [Setting.run_append, Setting.run_cons]
  have advances := @advances_run ⟨start options, tree⟩ (Advances.start options) front
  have acted := advances_act advances.again .exit
  have went := (advances_run acted.again back).phase
  obtain ⟨catalog, equal, _⟩ := exit_session
    ((Setting.mk (start options) tree).run front).session
    ((Setting.mk (start options) tree).run front).tree
  rw [Setting.act, equal] at went ⊢
  revert went
  cases (Setting.run _ back).session.phase <;> simp [Phase.rank]

/-! ## The whole life -/

/-- The life of a session, at any moment of any run: the phase never goes back; a catalog
was loaded by one action, from the files of that moment, and its translations and
expansions stay the same from then on, while the files are not looked at again; a step
that fails changes nothing; a visited file has all its calls registered or none; and once
the session was left, every step fails and changes neither the session nor a file. -/
theorem session_life_cycle (options : Options) (tree : FileTree) (actions : List Action) :
    let first : Setting := ⟨start options, tree⟩
    let setting := first.run actions
    (∀ more, setting.session.phase.rank ≤ (setting.run more).session.phase.rank) ∧
      (setting.session.catalog ≠ none →
        (∃ front action back store, actions = front ++ action :: back ∧
            (∀ less, less <+: front → (first.run less).session.catalog = none) ∧
            LocaleStore.load (first.run front).tree options.localesDir = .ok store ∧
            ∀ more, ∃ catalog,
              (first.run (front ++ action :: more)).session.catalog = some catalog ∧
                catalog.inputs = store.locales ∧
                catalog.expansions = expansionsOf store options.unknownKeys) ∧
          ∀ action other, action ≠ .exit →
            (Setting.act ⟨setting.session, other⟩ action).session =
                (setting.act action).session ∧
              Setting.answer ⟨setting.session, other⟩ action = setting.answer action) ∧
      (∀ action error, action ≠ .exit → setting.answer action = .error error →
        setting.act action = setting) ∧
      (∀ file, setting.answer (.visit file) = .ok () →
        setting.act (.visit file) =
            setting.run ((file.calls options.fnNames).map .register) ∧
          ∀ front call back, file.calls options.fnNames = front ++ call :: back →
            (setting.run (front.map .register)).answer (.register call) = .ok ()) ∧
      (.exit ∈ actions →
        (∀ action ∈ [Action.enter, Action.exit],
            setting.answer action = .error .alreadyFlushed ∧ setting.act action = setting) ∧
          ∀ call, setting.answer (.register call) = .error .alreadyFlushed ∧
            setting.act (.register call) = setting) := by
  intro first setting
  have advances : Advances first.session setting.session :=
    advances_run (Advances.start options) actions
  have sameOptions : ∀ more, (first.run more).session.options = options := by
    intro more
    exact (@advances_run first (Advances.start options) more).options
  refine ⟨?_, ?_, ?_, ?_, ?_⟩
  · intro more
    exact (advances_run advances.again more).phase
  · intro loaded
    obtain ⟨front, action, back, store, split, none, found, kept⟩ :=
      exists_loading tree actions loaded
    refine ⟨⟨front, action, back, store, split, none, found, ?_⟩, ?_⟩
    · intro more
      obtain ⟨catalog, held, inputs, expansions⟩ := kept more
      rw [sameOptions] at expansions
      exact ⟨catalog, held, inputs, expansions⟩
    · intro action other stays
      exact act_of_loaded loaded stays other
  · intro action error stays failed
    exact act_of_error stays failed
  · intro file done
    rw [← sameOptions actions]
    exact registerAll_of_ok done
  · intro left
    exact act_of_flushed (flushed_of_exit tree left)

/-- A session that is entered while its files are at hand, gets a call when they are gone,
and is left. -/
def bareActions : List Action :=
  [.enter, .disk (.empty "w"), .register ⟨default, .literal "home.title"⟩, .exit]

theorem bare_session_life :
    ((Setting.mk (start bareOptions) bareTree).run bareActions).session.catalog ≠ none ∧
      .exit ∈ bareActions ∧
      (∃ front action back store, bareActions = front ++ action :: back ∧
        LocaleStore.load ((Setting.mk (start bareOptions) bareTree).run front).tree
            bareOptions.localesDir = .ok store ∧
        ∃ catalog,
          ((Setting.mk (start bareOptions) bareTree).run bareActions).session.catalog =
              some catalog ∧
            catalog.inputs = store.locales) ∧
      ((Setting.mk (start bareOptions) bareTree).run bareActions).answer .exit =
        .error .alreadyFlushed := by
  have loaded :
      ((Setting.mk (start bareOptions) bareTree).run bareActions).session.catalog ≠ none := by
    decide +kernel
  have left : .exit ∈ bareActions := by simp [bareActions]
  obtain ⟨_, loading, _, _, ended⟩ := session_life_cycle bareOptions bareTree bareActions
  obtain ⟨⟨front, action, back, store, split, _, found, kept⟩, _⟩ := loading loaded
  obtain ⟨catalog, held, inputs, _⟩ := kept back
  rw [← split] at held
  refine ⟨loaded, left, ⟨front, action, back, store, split, found, catalog, held, inputs⟩, ?_⟩
  exact ((ended left).1 .exit (by simp)).1

end Session
end Phrasebook
