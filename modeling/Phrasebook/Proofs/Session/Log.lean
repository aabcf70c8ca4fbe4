import Phrasebook.Proofs.Catalog.Outcomes
import Phrasebook.Proofs.Session.Lifecycle

/-!
# The log of a run

The log of a run lists the calls that were registered, each with what the catalog
answered for the keys the call stands for.  Whatever the run was, its session can be
read off the log: the keys, the calls without a literal key, the counts, and, with the
store that was loaded, the catalog.
-/

namespace Phrasebook

/-- A registered call with the answers of the catalog: for the literal key, or for each key
of the expansion known for the text of the call. -/
structure Registration where
  call : CallSite
  answers : List (String × KeyOutcome)

namespace Registration

open Catalog

/-- Whether the call has a literal key. -/
def isDirect (registration : Registration) : Bool :=
  match registration.call.key with
  | .literal _ => true
  | .unknown _ => false

/-- The record of a call without a literal key, with the expansions known. -/
def unknownCall? (expansions : List (String × List String)) (registration : Registration) :
    Option UnknownCall :=
  match registration.call.key with
  | .literal _ => none
  | .unknown signature =>
      some ⟨registration.call.context, signature, (Table.get? expansions signature).isSome⟩

/-- The registration of a call by a catalog. -/
def ofCatalog (catalog : Catalog) (call : CallSite) : Registration :=
  ⟨call, catalog.keyOutcomes (call.key.operation.keys catalog.expansions)⟩

end Registration

namespace Session

open Catalog

variable {options : Options} {session : Session} {catalog : Catalog}
variable {made : List Registration}

/-- The operations of a log on the catalog. -/
def operationsOf (log : List Registration) : List Operation :=
  log.map fun registration => registration.call.key.operation

/-- The answers in a log. -/
def answersOf (log : List Registration) : List (String × KeyOutcome) :=
  log.flatMap Registration.answers

/-- The keys that answers list as untranslated for a locale, each as often as it is listed. -/
def listings (answers : List (String × KeyOutcome)) (locale : String) : List String :=
  (answers.filter fun answer => locale ∈ answer.2.untranslated).map Prod.fst

/-- What is registered of some calls, up to the first failure. -/
def registrations (session : Session) (tree : FileTree) : List CallSite → List Registration
  | [] => []
  | call :: rest =>
      match (session.register tree call).result, (session.enter tree).session.catalog with
      | .ok (), some catalog =>
          .ofCatalog catalog call :: registrations (session.register tree call).session tree rest
      | _, _ => []

namespace Setting

/-- What an action registers. -/
def registrations (setting : Setting) : Action → List Registration
  | .register call => setting.session.registrations setting.tree [call]
  | .visit file =>
      setting.session.registrations setting.tree (file.calls setting.session.options.fnNames)
  | .enter => []
  | .exit => []
  | .disk _ => []

/-- What actions register, one after the other. -/
def log (setting : Setting) : List Action → List Registration
  | [] => []
  | action :: rest => setting.registrations action ++ (setting.act action).log rest

end Setting

/-- The sessions that registrations can lead to. -/
inductive Logged (options : Options) : List Registration → Session → Prop where
  | start : Logged options [] (start options)
  | enter {made : List Registration} {session : Session} (logged : Logged options made session)
      (tree : FileTree) : Logged options made (session.enter tree).session
  | register {made : List Registration} {session : Session} {catalog : Catalog}
      (logged : Logged options made session) (tree : FileTree) (call : CallSite)
      (done : (session.register tree call).result = .ok ())
      (held : (session.enter tree).session.catalog = some catalog) :
      Logged options (made ++ [.ofCatalog catalog call]) (session.register tree call).session
  | exit {made : List Registration} {session : Session} (logged : Logged options made session)
      (tree : FileTree) : Logged options made (session.exit tree).session

theorem Logged.registerAll (logged : Logged options made session) (tree : FileTree)
    (calls : List CallSite) :
    Logged options (made ++ session.registrations tree calls)
      (session.registerAll tree calls).session := by
  induction calls generalizing made session with
  | nil => simpa [registrations, Session.registerAll, Session.done] using logged
  | cons call rest ih =>
      rcases register_cases session tree call with
        ⟨error, failed, same⟩ | ⟨catalog, _, held, _, done⟩
      · have refused : (session.register tree call).result = .error error := by
          rw [same]
          exact failed
        rw [registerAll_of_failed refused, register_of_error refused]
        simpa [registrations, refused] using logged
      · rw [(registerAll_of_register done rest).1]
        have registered := ih (logged.register tree call done held)
        simpa [registrations, done, held] using registered

/-- Every action leads where what it registers leads. -/
theorem Logged.act {setting : Setting} (logged : Logged options made setting.session)
    (action : Action) :
    Logged options (made ++ setting.registrations action) (setting.act action).session := by
  cases action with
  | enter =>
      rw [Setting.registrations, List.append_nil]
      exact logged.enter setting.tree
  | register call =>
      have registered := logged.registerAll setting.tree [call]
      cases result : (setting.session.register setting.tree call).result with
      | error error => rwa [registerAll_of_failed result] at registered
      | ok _ => rwa [(registerAll_of_register result []).1] at registered
  | visit file => exact logged.registerAll setting.tree _
  | exit =>
      rw [Setting.registrations, List.append_nil]
      exact logged.exit setting.tree
  | disk tree =>
      rw [Setting.registrations, List.append_nil]
      exact logged

theorem Logged.run {setting : Setting} (logged : Logged options made setting.session)
    (actions : List Action) :
    Logged options (made ++ setting.log actions) (setting.run actions).session := by
  induction actions generalizing made setting with
  | nil =>
      rw [Setting.log, List.append_nil]
      exact logged
  | cons action rest ih =>
      rw [Setting.run_cons, Setting.log, ← List.append_assoc]
      exact ih (logged.act action)

/-- Every run leads where its log leads. -/
theorem logged_run (options : Options) (tree : FileTree) (actions : List Action) :
    Logged options ((Setting.mk (start options) tree).log actions)
      ((Setting.mk (start options) tree).run actions).session :=
  @Logged.run options [] ⟨start options, tree⟩ .start actions

theorem merge_literal {call : CallSite} {key : String} (literal : call.key = .literal key)
    (session : Session) (catalog : Catalog) :
    session.merge catalog call =
      { session with
        phase := .accumulating
        catalog := some (catalog.addKey key).1
        keys := insertKey session.keys key
        untranslatedCounts :=
          countUp session.untranslatedCounts (catalog.addKey key).2.untranslated } := by
  simp [merge, literal]

theorem merge_unknown {call : CallSite} {signature : String}
    (unknown : call.key = .unknown signature) (session : Session) (catalog : Catalog) :
    session.merge catalog call =
      { session with
        phase := .accumulating
        catalog := some (catalog.addUnknown signature).1
        keys := ((Table.get? catalog.expansions signature).getD []).foldl insertKey session.keys
        unknownCalls := session.unknownCalls ++
          [⟨call.context, signature, (Table.get? catalog.expansions signature).isSome⟩] } := by
  simp only [merge, unknown, addUnknown]
  cases Table.get? catalog.expansions signature with
  | some keys => rfl
  | none => rfl

theorem get?_countUp (counts : List (String × Nat)) (locales : List String) (locale : String) :
    (Table.get? (countUp counts locales) locale).getD 0 =
      (Table.get? counts locale).getD 0 + locales.count locale := by
  induction locales generalizing counts with
  | nil => rfl
  | cons first rest ih =>
      rw [countUp, List.foldl_cons, ← countUp, ih, Table.get?_insert, List.count_cons]
      by_cases same : first = locale
      · subst same
        simp
        omega
      · simp [same]

/-- The keys of a session stand in increasing order. -/
theorem pairwise_insertKey {keys : List String} (sorted : keys.Pairwise (· < ·))
    (key : String) : (insertKey keys key).Pairwise (· < ·) := by
  induction keys with
  | nil => exact List.pairwise_singleton ..
  | cons first rest ih =>
      have above := (List.pairwise_cons.mp sorted).1
      unfold insertKey
      split
      · exact sorted
      · rename_i different
        split
        · rename_i less
          apply List.pairwise_cons.mpr
          refine ⟨?_, sorted⟩
          intro other member
          rcases List.mem_cons.mp member with rfl | member
          · exact less
          · exact String.lt_trans less (above other member)
        · rename_i notLess
          apply List.pairwise_cons.mpr
          refine ⟨?_, ih (List.pairwise_cons.mp sorted).2⟩
          intro other member
          rcases mem_insertKey.mp member with rfl | member
          · exact String.not_le.mp fun le =>
              different (String.le_antisymm (String.not_lt.mp notLess) le)
          · exact above other member

theorem pairwise_foldl_insertKey {keys : List String} (sorted : keys.Pairwise (· < ·))
    (added : List String) : (added.foldl insertKey keys).Pairwise (· < ·) := by
  induction added generalizing keys with
  | nil => exact sorted
  | cons key rest ih => exact ih (pairwise_insertKey sorted key)

/-- What a catalog lists for a key are locales of its own, each once. -/
theorem untranslated_sublist (catalog : Catalog) (key : String) :
    (catalog.addKey key).2.untranslated.Sublist catalog.names := by
  unfold addKey
  split
  · exact (List.filter_sublist.trans List.filter_sublist).map _
  · exact List.nil_sublist _

theorem names_run (store : LocaleStore) (base : String)
    (expansions : List (String × List String)) (operations : List Operation) :
    ((ofStore store base expansions).run operations).names = store.names := by
  rw [Catalog.names, locales_run, List.map_map]
  simp only [Function.comp_def, name_finalLocale]
  rfl

theorem map_fst_keyOutcomes (catalog : Catalog) (keys : List String) :
    (catalog.keyOutcomes keys).map Prod.fst = keys := by
  induction keys generalizing catalog with
  | nil => rfl
  | cons key rest ih => rw [keyOutcomes, List.map_cons, ih]

theorem outcomes_append (catalog : Catalog) (first second : List Operation) :
    catalog.outcomes (first ++ second) =
      catalog.outcomes first ++ (catalog.run first).outcomes second := by
  induction first generalizing catalog with
  | nil => rfl
  | cons operation rest ih =>
      rw [List.cons_append, outcomes, outcomes, ih, List.append_assoc]
      rfl

section
variable {call : CallSite} {key signature : String}

theorem answers_ofCatalog (catalog : Catalog) (call : CallSite) :
    (Registration.ofCatalog catalog call).answers.map Prod.fst =
      call.key.operation.keys catalog.expansions :=
  map_fst_keyOutcomes ..

theorem isDirect_of_literal (literal : call.key = .literal key) (catalog : Catalog) :
    (Registration.ofCatalog catalog call).isDirect = true := by
  rw [Registration.isDirect, Registration.ofCatalog, literal]

theorem isDirect_of_unknown (unknown : call.key = .unknown signature) (catalog : Catalog) :
    (Registration.ofCatalog catalog call).isDirect = false := by
  rw [Registration.isDirect, Registration.ofCatalog, unknown]

theorem unknownCall?_of_literal (literal : call.key = .literal key) (catalog : Catalog)
    (expansions : List (String × List String)) :
    (Registration.ofCatalog catalog call).unknownCall? expansions = none := by
  rw [Registration.unknownCall?, Registration.ofCatalog, literal]

theorem unknownCall?_of_unknown (unknown : call.key = .unknown signature) (catalog : Catalog)
    (expansions : List (String × List String)) :
    (Registration.ofCatalog catalog call).unknownCall? expansions =
      some ⟨call.context, signature, (Table.get? expansions signature).isSome⟩ := by
  rw [Registration.unknownCall?, Registration.ofCatalog, unknown]

/-- A literal key is listed for the locales that the catalog answers with. -/
theorem listings_of_literal (literal : call.key = .literal key) (catalog : Catalog)
    (locale : String) :
    listings (Registration.ofCatalog catalog call).answers locale =
      if locale ∈ (catalog.addKey key).2.untranslated then [key] else [] := by
  rw [listings, Registration.ofCatalog, literal]
  by_cases member : locale ∈ (catalog.addKey key).2.untranslated
  · simp [CallKey.operation, Operation.keys, keyOutcomes, member]
  · simp [CallKey.operation, Operation.keys, keyOutcomes, member]

end

theorem listings_append (first second : List (String × KeyOutcome)) (locale : String) :
    listings (first ++ second) locale = listings first locale ++ listings second locale := by
  simp [listings]

theorem answersOf_append_singleton (registration : Registration) :
    answersOf (made ++ [registration]) = answersOf made ++ registration.answers := by
  simp [answersOf]

/-! ## What a log says of its session -/

/-- The catalog of a store with the options of a session, before anything is merged. -/
def firstCatalog (options : Options) (store : LocaleStore) : Catalog :=
  ofStore store options.base (expansionsOf store options.unknownKeys)

/-- A catalog is the one that the operations of a log make of a store, and the answers in
the log are those of that run. -/
structure Merged (options : Options) (made : List Registration) (store : LocaleStore)
    (catalog : Catalog) : Prop where
  answers : answersOf made = (firstCatalog options store).outcomes (operationsOf made)
  catalog : catalog = (firstCatalog options store).run (operationsOf made)

/-- A session holds what its registrations have put there.  Its catalog is the one they have
merged, and at most it was marked clean at the end. -/
structure Account (options : Options) (made : List Registration) (session : Session) :
    Prop where
  given : session.options = options
  unloaded : session.catalog = none → made = []
  sorted : session.keys.Pairwise (· < ·)
  keys : ∀ key, key ∈ session.keys ↔ key ∈ (answersOf made).map Prod.fst
  counts : ∀ locale, (Table.get? session.untranslatedCounts locale).getD 0 =
    (listings (answersOf (made.filter Registration.isDirect)) locale).length
  calls : session.unknownCalls = made.filterMap
    (Registration.unknownCall? ((session.catalog.map Catalog.expansions).getD []))
  loaded : ∀ catalog, session.catalog = some catalog → ∃ store final,
    Merged options made store final ∧
      (catalog = final ∨ session.phase = .flushed ∧ catalog = final.markClean)

theorem account_start (options : Options) : Account options [] (start options) where
  given := rfl
  unloaded := fun _ => rfl
  sorted := List.Pairwise.nil
  keys := fun key => by simp [start, answersOf]
  counts := fun locale => rfl
  calls := rfl
  loaded := by simp [start]

theorem Merged.append {store : LocaleStore} (merged : Merged options made store catalog)
    (call : CallSite) :
    Merged options (made ++ [.ofCatalog catalog call]) store
      (catalog.apply call.key.operation) := by
  have operations : operationsOf (made ++ [.ofCatalog catalog call]) =
      operationsOf made ++ [call.key.operation] := by
    simp [operationsOf, Registration.ofCatalog]
  constructor
  · rw [operations, outcomes_append, ← merged.answers, ← merged.catalog,
      answersOf_append_singleton]
    simp [Registration.ofCatalog, outcomes]
  · rw [operations, run_append_singleton, ← merged.catalog]

theorem Merged.names {store : LocaleStore} (merged : Merged options made store catalog) :
    catalog.names = store.names := by
  rw [merged.catalog, firstCatalog, names_run]

theorem Merged.inputs {store : LocaleStore} (merged : Merged options made store catalog) :
    catalog.inputs = store.locales := by
  rw [merged.catalog, Catalog.inputs, firstCatalog, locales_run, List.map_map]
  simp [Function.comp_def]

theorem Merged.expansions {store : LocaleStore} (merged : Merged options made store catalog) :
    catalog.expansions = expansionsOf store options.unknownKeys := by
  rw [merged.catalog, firstCatalog, expansions_run]

namespace Account

theorem enter (account : Account options made session) (tree : FileTree) :
    Account options made (session.enter tree).session := by
  rcases enter_session session tree with same | ⟨store, _, unloaded, equal⟩
  · rwa [same]
  · obtain rfl := account.unloaded unloaded
    rw [equal]
    refine ⟨account.given, fun _ => rfl, account.sorted, account.keys, account.counts, ?_, ?_⟩
    · simpa using account.calls
    · intro catalog held
      refine ⟨store, catalog, ⟨rfl, ?_⟩, .inl rfl⟩
      rw [← Option.some.inj held, account.given]
      rfl

/-- A running session holds the catalog its registrations have merged. -/
theorem merged (account : Account options made session)
    (held : session.catalog = some catalog) (running : session.phase ≠ .flushed) :
    ∃ store, Merged options made store catalog := by
  obtain ⟨store, final, merged, same⟩ := account.loaded catalog held
  rcases same with rfl | left
  · exact ⟨store, merged⟩
  · exact absurd left.1 running

/-- The catalog of a session, even of one that was left, reads like the one its registrations
have merged. -/
theorem held (account : Account options made session)
    (present : session.catalog = some catalog) :
    ∃ store final, Merged options made store final ∧ catalog.outputs = final.outputs ∧
      catalog.inputs = final.inputs ∧ catalog.expansions = final.expansions := by
  obtain ⟨store, final, merged, same⟩ := account.loaded catalog present
  refine ⟨store, final, merged, ?_⟩
  rcases same with rfl | ⟨_, rfl⟩
  · exact ⟨rfl, rfl, rfl⟩
  · exact ⟨rfl, rfl, rfl⟩

theorem keys_append (account : Account options made session) (call : CallSite) (key : String) :
    key ∈ (answersOf (made ++ [.ofCatalog catalog call])).map Prod.fst ↔
      key ∈ session.keys ∨ key ∈ call.key.operation.keys catalog.expansions := by
  rw [answersOf_append_singleton, List.map_append, answers_ofCatalog, List.mem_append,
    account.keys]

theorem merge_of_literal (account : Account options made session)
    (held : session.catalog = some catalog) (running : session.phase ≠ .flushed)
    {call : CallSite} {key : String} (literal : call.key = .literal key) :
    Account options (made ++ [.ofCatalog catalog call]) (session.merge catalog call) := by
  obtain ⟨store, merged⟩ := account.merged held running
  have nodup : (catalog.addKey key).2.untranslated.Nodup := by
    apply (untranslated_sublist catalog key).nodup
    rw [merged.names]
    exact store.increasing.nodup
  have known : (catalog.addKey key).1.expansions = catalog.expansions :=
    (inputs_apply catalog (.key key)).2
  rw [merge_literal literal]
  refine ⟨account.given, by simp, pairwise_insertKey account.sorted key, ?_, ?_, ?_, ?_⟩
  · intro other
    rw [mem_insertKey, account.keys_append, literal, CallKey.operation, Operation.keys,
      List.mem_singleton, or_comm]
  · intro locale
    have direct : (made ++ [Registration.ofCatalog catalog call]).filter Registration.isDirect =
        made.filter Registration.isDirect ++ [.ofCatalog catalog call] := by
      simp [isDirect_of_literal literal]
    rw [get?_countUp, account.counts, nodup.count, direct, answersOf_append_singleton,
      listings_append, List.length_append, listings_of_literal literal]
    split
    · rfl
    · rfl
  · have calls := account.calls
    simp only [held, Option.map_some, Option.getD_some] at calls
    simp only [Option.map_some, Option.getD_some, known, List.filterMap_append, calls,
      List.filterMap_cons, unknownCall?_of_literal literal, List.filterMap_nil, List.append_nil]
  · intro later equal
    refine ⟨store, later, ?_, .inl rfl⟩
    have appended := merged.append call
    rw [literal] at appended
    rwa [← Option.some.inj equal]

theorem merge_of_unknown (account : Account options made session)
    (held : session.catalog = some catalog) (running : session.phase ≠ .flushed)
    {call : CallSite} {signature : String} (unknown : call.key = .unknown signature) :
    Account options (made ++ [.ofCatalog catalog call]) (session.merge catalog call) := by
  obtain ⟨store, merged⟩ := account.merged held running
  have known : (catalog.addUnknown signature).1.expansions = catalog.expansions :=
    (inputs_apply catalog (.unknown signature)).2
  rw [merge_unknown unknown]
  refine ⟨account.given, by simp, pairwise_foldl_insertKey account.sorted _, ?_, ?_, ?_, ?_⟩
  · intro other
    rw [mem_foldl_insertKey, account.keys_append, unknown]
    rfl
  · intro locale
    have direct : (made ++ [Registration.ofCatalog catalog call]).filter Registration.isDirect =
        made.filter Registration.isDirect := by
      simp [isDirect_of_unknown unknown]
    rw [direct]
    exact account.counts locale
  · have calls := account.calls
    simp only [held, Option.map_some, Option.getD_some] at calls
    simp only [Option.map_some, Option.getD_some, known, List.filterMap_append, calls,
      List.filterMap_cons, unknownCall?_of_unknown unknown, List.filterMap_nil]
  · intro later equal
    refine ⟨store, later, ?_, .inl rfl⟩
    have appended := merged.append call
    rw [unknown] at appended
    rwa [← Option.some.inj equal]

theorem merge (account : Account options made session)
    (held : session.catalog = some catalog) (running : session.phase ≠ .flushed)
    (call : CallSite) :
    Account options (made ++ [.ofCatalog catalog call]) (session.merge catalog call) := by
  cases shape : call.key with
  | literal key => exact account.merge_of_literal held running shape
  | unknown signature => exact account.merge_of_unknown held running shape

theorem exit (account : Account options made session) (tree : FileTree) :
    Account options made (session.exit tree).session := by
  obtain ⟨left, equal, marked⟩ := session.exit_session tree
  have expansions : left.map Catalog.expansions = session.catalog.map Catalog.expansions := by
    rcases marked with rfl | rfl
    · rfl
    · rw [Option.map_map]
      rfl
  rw [equal]
  refine ⟨account.given, ?_, account.sorted, account.keys, account.counts, ?_, ?_⟩
  · intro none
    apply account.unloaded
    rcases marked with rfl | rfl
    · exact none
    · simpa using none
  · rw [account.calls]
    simp only [expansions]
  · intro catalog held
    rcases marked with rfl | rfl
    · obtain ⟨store, final, merged, same⟩ := account.loaded catalog held
      exact ⟨store, final, merged, same.imp_right fun clean => ⟨rfl, clean.2⟩⟩
    · obtain ⟨old, found, rfl⟩ := Option.map_eq_some_iff.mp held
      obtain ⟨store, final, merged, same⟩ := account.loaded old found
      refine ⟨store, final, merged, .inr ⟨rfl, ?_⟩⟩
      rcases same with rfl | ⟨_, rfl⟩
      · rfl
      · rfl

end Account

/-- A log accounts for its session. -/
theorem Logged.account (logged : Logged options made session) :
    Account options made session := by
  induction logged with
  | start => exact account_start options
  | enter _ tree account => exact account.enter tree
  | @register made session catalog _ tree call done held account =>
      obtain ⟨other, entered, found, merged⟩ := register_of_ok done
      obtain rfl : catalog = other := Option.some.inj (held.symm.trans found)
      rw [merged]
      exact (account.enter tree).merge held (enter_of_ok entered).1 call
  | exit _ tree account => exact account.exit tree

/-- The log of a run accounts for the session it ends with. -/
theorem account_run (options : Options) (tree : FileTree) (actions : List Action) :
    Account options ((Setting.mk (start options) tree).log actions)
      ((Setting.mk (start options) tree).run actions).session :=
  (logged_run options tree actions).account

/-- The files of a project whose locales have no translations. -/
def pairTree : FileTree :=
  ⟨.dir [("locales",
    .dir [("en.json", .file (.text "\x7b\x7d")), ("fr.json", .file (.text "\x7b\x7d"))])], []⟩

/-- A call with a literal key. -/
def literalCall (key : String) : Action :=
  .register ⟨default, .literal key⟩

/-- A call without one. -/
def unknownCall (signature : String) : Action :=
  .register ⟨default, .unknown signature⟩

end Session
end Phrasebook
