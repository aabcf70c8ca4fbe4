import Phrasebook.Session
import Phrasebook.Proofs.Catalog.Run

/-!
# Reached sessions

A session is reached by entering it, registering calls and leaving it, in any order and
with any files at hand each time, whether a step succeeds or not.  Its catalog is always
that of a run on some store, and its keys are the keys this run registered.
-/

namespace Phrasebook

/-- The operation a call asks of the catalog. -/
def CallKey.operation : CallKey → Catalog.Operation
  | .literal key => .key key
  | .unknown signature => .unknown signature

namespace Session

open Catalog

variable {session : Session} {options : Options} {tree : FileTree} {call : CallSite}
variable {catalog : Catalog}

/-- The sessions that steps lead to. -/
inductive Reached (options : Options) : Session → Prop where
  | start : Reached options (start options)
  | enter {session : Session} (reached : Reached options session) (tree : FileTree) :
      Reached options (session.enter tree).session
  | register {session : Session} (reached : Reached options session) (tree : FileTree)
      (call : CallSite) : Reached options (session.register tree call).session
  | exit {session : Session} (reached : Reached options session) (tree : FileTree) :
      Reached options (session.exit tree).session

@[simp] theorem mem_insertKey {keys : List String} {key other : String} :
    other ∈ insertKey keys key ↔ other = key ∨ other ∈ keys := by
  induction keys with
  | nil => simp [insertKey]
  | cons first rest ih =>
      unfold insertKey
      split
      · rename_i equal
        subst equal
        simp
      · split
        · simp
        · simp only [List.mem_cons, ih]
          exact or_left_comm

theorem mem_foldl_insertKey {keys added : List String} {other : String} :
    other ∈ added.foldl insertKey keys ↔ other ∈ keys ∨ other ∈ added := by
  induction added generalizing keys with
  | nil => simp
  | cons key rest ih =>
      rw [List.foldl_cons, ih, mem_insertKey, List.mem_cons, or_comm (a := other = key),
        or_assoc]

/-- A merged call is an operation on the catalog, and its keys are taken into those of
the session. -/
theorem merge_eq (session : Session) (catalog : Catalog) (call : CallSite) :
    ∃ counts calls, session.merge catalog call =
      ⟨session.options, .accumulating, some (catalog.apply call.key.operation),
        (call.key.operation.keys catalog.expansions).foldl insertKey session.keys,
        counts, calls⟩ := by
  unfold merge
  cases call.key with
  | literal key => exact ⟨_, _, rfl⟩
  | unknown signature =>
      simp only [CallKey.operation, apply, addUnknown, Operation.keys]
      cases Table.get? catalog.expansions signature with
      | some keys => exact ⟨_, _, rfl⟩
      | none => exact ⟨_, _, rfl⟩

/-- A loaded catalog is that of the store on disk. -/
theorem loadCatalog_eq_ok {notices : List Notice}
    (load : loadCatalog options tree = .ok (catalog, notices)) :
    ∃ store, LocaleStore.load tree options.localesDir = .ok store ∧
      catalog = ofStore store options.base (expansionsOf store options.unknownKeys) := by
  unfold loadCatalog at load
  cases loaded : LocaleStore.load tree options.localesDir with
  | error error =>
      rw [loaded] at load
      cases load
  | ok store =>
      rw [loaded] at load
      cases load
      exact ⟨store, rfl, rfl⟩

/-- Entering a session fails at once, finds the catalog there, or loads it. -/
theorem enter_cases (session : Session) (tree : FileTree) :
    (session.phase = .flushed ∧ session.enter tree = session.failed .alreadyFlushed) ∨
      (∃ error, session.phase ≠ .flushed ∧ session.catalog = none ∧
        loadCatalog session.options tree = .error error ∧
        session.enter tree = session.failed (.load error)) ∨
      (∃ catalog, session.phase ≠ .flushed ∧ session.catalog = some catalog ∧
        session.enter tree = session.done) ∨
      ∃ store notices, session.phase ≠ .flushed ∧ session.catalog = none ∧
        LocaleStore.load tree session.options.localesDir = .ok store ∧
        session.enter tree =
          ⟨{ session with
              catalog := some (ofStore store session.options.base
                (expansionsOf store session.options.unknownKeys))
              phase := .loaded }, notices, .ok ()⟩ := by
  unfold enter
  split
  · rename_i flushed
    exact .inl ⟨flushed, rfl⟩
  · rename_i notFlushed
    split
    · rename_i loaded
      obtain ⟨catalog, loaded⟩ := Option.isSome_iff_exists.mp loaded
      exact .inr (.inr (.inl ⟨catalog, notFlushed, loaded, rfl⟩))
    · rename_i unloaded
      rw [Option.not_isSome_iff_eq_none] at unloaded
      split
      · rename_i error failed
        exact .inr (.inl ⟨error, notFlushed, unloaded, failed, rfl⟩)
      · rename_i catalog notices load
        obtain ⟨store, found, rfl⟩ := loadCatalog_eq_ok load
        exact .inr (.inr (.inr ⟨store, notices, notFlushed, unloaded, found, rfl⟩))

/-- Entering a session changes nothing, or loads the catalog it did not have. -/
theorem enter_session (session : Session) (tree : FileTree) :
    (session.enter tree).session = session ∨
      ∃ store, LocaleStore.load tree session.options.localesDir = .ok store ∧
        session.catalog = none ∧
        (session.enter tree).session =
          { session with
            catalog := some (ofStore store session.options.base
              (expansionsOf store session.options.unknownKeys))
            phase := .loaded } := by
  rcases enter_cases session tree with
    ⟨_, fails⟩ | ⟨_, _, _, _, fails⟩ | ⟨_, _, _, again⟩ | ⟨store, _, _, unloaded, found, loads⟩
  · exact .inl (by rw [fails]; rfl)
  · exact .inl (by rw [fails]; rfl)
  · exact .inl (by rw [again]; rfl)
  · exact .inr ⟨store, found, unloaded, by rw [loads]⟩

/-- Entering a session that succeeds leaves it with a catalog, and it was not left before. -/
theorem enter_of_ok (entered : (session.enter tree).result = .ok ()) :
    (session.enter tree).session.phase ≠ .flushed ∧
      ∃ catalog, (session.enter tree).session.catalog = some catalog := by
  rcases enter_cases session tree with
    ⟨_, fails⟩ | ⟨_, _, _, _, fails⟩ | ⟨catalog, running, loaded, again⟩ |
      ⟨_, _, _, _, _, loads⟩
  · rw [fails] at entered
    cases entered
  · rw [fails] at entered
    cases entered
  · rw [again]
    exact ⟨running, catalog, loaded⟩
  · rw [loads]
    exact ⟨by simp, _, rfl⟩

/-- Registering a call fails as entering the session does, or it succeeds and the call is
merged. -/
theorem register_cases (session : Session) (tree : FileTree) (call : CallSite) :
    (∃ error, (session.enter tree).result = .error error ∧
        session.register tree call = session.enter tree) ∨
      ∃ catalog, (session.enter tree).result = .ok () ∧
        (session.enter tree).session.catalog = some catalog ∧
        (session.register tree call).session =
          (session.enter tree).session.merge catalog call ∧
        (session.register tree call).result = .ok () := by
  unfold register Step.andThen
  split
  · rename_i error failed
    exact .inl ⟨error, failed, rfl⟩
  · rename_i entered
    obtain ⟨_, catalog, loaded⟩ := enter_of_ok entered
    simp only [loaded]
    exact .inr ⟨catalog, entered, rfl, rfl, rfl⟩

/-- Registering a call that succeeds merges it into the entered session. -/
theorem register_of_ok (done : (session.register tree call).result = .ok ()) :
    ∃ catalog, (session.enter tree).result = .ok () ∧
      (session.enter tree).session.catalog = some catalog ∧
      (session.register tree call).session =
        (session.enter tree).session.merge catalog call := by
  rcases register_cases session tree call with
    ⟨error, failed, same⟩ | ⟨catalog, entered, loaded, merged, _⟩
  · rw [same, failed] at done
    cases done
  · exact ⟨catalog, entered, loaded, merged⟩

/-- Registering a call enters the session and, unless that fails, merges the call. -/
theorem register_session (session : Session) (tree : FileTree) (call : CallSite) :
    (session.register tree call).session = (session.enter tree).session ∨
      ∃ catalog, (session.enter tree).session.catalog = some catalog ∧
        (session.enter tree).session.phase ≠ .flushed ∧
        (session.register tree call).session =
          (session.enter tree).session.merge catalog call := by
  rcases register_cases session tree call with
    ⟨error, _, same⟩ | ⟨catalog, entered, loaded, merged, _⟩
  · rw [same]
    exact .inl rfl
  · exact .inr ⟨catalog, loaded, (enter_of_ok entered).1, merged⟩

/-- Leaving a session ends it; the catalog is at most marked clean. -/
theorem exit_session (session : Session) (tree : FileTree) :
    ∃ catalog, (session.exit tree).session = { session with phase := .flushed, catalog } ∧
      (catalog = session.catalog ∨ catalog = session.catalog.map markClean) := by
  unfold exit
  split
  · rename_i flushed
    exact ⟨session.catalog, by rw [← flushed], .inl rfl⟩
  · cases loaded : session.catalog with
    | none => exact ⟨none, rfl, .inl rfl⟩
    | some catalog =>
        dsimp only
        split
        · exact ⟨some catalog, rfl, .inl rfl⟩
        · split
          · exact ⟨some catalog, rfl, .inl rfl⟩
          · split
            · exact ⟨some catalog, rfl, .inl rfl⟩
            · exact ⟨some catalog.markClean, rfl, .inr rfl⟩

/-! ## What a session has merged -/

/-- The catalog, once loaded, is that of a run on some store which registered the keys of
the session; leaving the session at most marks it clean. -/
structure Accounted (session : Session) : Prop where
  unloaded : session.catalog = none → session.keys = []
  loaded : ∀ catalog, session.catalog = some catalog →
    ∃ store expansions operations,
      catalog.locales =
          ((ofStore store session.options.base expansions).run operations).locales ∧
        (session.phase ≠ .flushed →
          catalog = (ofStore store session.options.base expansions).run operations) ∧
        ∀ key, key ∈ session.keys ↔ key ∈ registeredKeys expansions operations

theorem accounted_start (options : Options) : Accounted (start options) :=
  ⟨fun _ => rfl, by simp [start]⟩

namespace Accounted

theorem enter (accounted : Accounted session) (tree : FileTree) :
    Accounted (session.enter tree).session := by
  rcases enter_session session tree with same | ⟨store, _, unloaded, equal⟩
  · rwa [same]
  · rw [equal]
    refine ⟨by simp, ?_⟩
    rintro _ ⟨rfl⟩
    refine ⟨store, _, [], rfl, fun _ => rfl, ?_⟩
    simp [accounted.unloaded unloaded, registeredKeys]

theorem merge (accounted : Accounted session) (loaded : session.catalog = some catalog)
    (running : session.phase ≠ .flushed) (call : CallSite) :
    Accounted (session.merge catalog call) := by
  obtain ⟨store, expansions, operations, _, equal, keys⟩ := accounted.loaded catalog loaded
  obtain rfl := equal running
  obtain ⟨counts, calls, merged⟩ := session.merge_eq
    ((ofStore store session.options.base expansions).run operations) call
  rw [merged]
  refine ⟨by simp, ?_⟩
  rintro _ ⟨rfl⟩
  refine ⟨store, expansions, operations ++ [call.key.operation], ?_, fun _ => ?_, ?_⟩
  · rw [run_append_singleton]
  · rw [run_append_singleton]
  · intro key
    simp [mem_foldl_insertKey, keys, registeredKeys]

theorem register (accounted : Accounted session) (tree : FileTree) (call : CallSite) :
    Accounted (session.register tree call).session := by
  have entered := accounted.enter tree
  rcases register_session session tree call with same | ⟨catalog, loaded, running, equal⟩
  · rwa [same]
  · rw [equal]
    exact entered.merge loaded running call

theorem exit (accounted : Accounted session) (tree : FileTree) :
    Accounted (session.exit tree).session := by
  obtain ⟨left, equal, marked⟩ := session.exit_session tree
  rw [equal]
  refine ⟨?_, ?_⟩
  · intro unloaded
    apply accounted.unloaded
    rcases marked with rfl | rfl
    · exact unloaded
    · simpa using unloaded
  · intro catalog found
    have held : ∃ old, session.catalog = some old ∧ catalog.locales = old.locales := by
      rcases marked with rfl | rfl
      · exact ⟨catalog, found, rfl⟩
      · obtain ⟨old, held, rfl⟩ := Option.map_eq_some_iff.mp found
        exact ⟨old, held, rfl⟩
    obtain ⟨old, held, sameLocales⟩ := held
    obtain ⟨store, expansions, operations, locales, _, keys⟩ := accounted.loaded old held
    exact ⟨store, expansions, operations, sameLocales.trans locales,
      fun running => absurd rfl running, keys⟩

end Accounted

/-- Every reached session is accounted for. -/
theorem Reached.accounted (reached : Reached options session) : Accounted session := by
  induction reached with
  | start => exact accounted_start options
  | enter _ tree accounted => exact accounted.enter tree
  | register _ tree call accounted => exact accounted.register tree call
  | exit _ tree accounted => exact accounted.exit tree

end Session
end Phrasebook
