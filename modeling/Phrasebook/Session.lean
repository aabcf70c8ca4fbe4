import Phrasebook.Call
import Phrasebook.Catalog
import Phrasebook.LocaleFiles
import Phrasebook.Text.Color

/-!
# Extraction sessions

A session takes the calls of one run.  The locales are loaded when it is entered
or when the first call comes, and never again.  Leaving it writes the merged
files once, and only if something was merged.  A session that was left refuses
everything.

Every step answers with the session it leaves, whether it fails or not.  One that
fails leaves the session as it was; only leaving it counts even if the writing
fails.
-/

namespace Phrasebook

open Json

/-- The options of one run, with paths already resolved. -/
structure Options where
  localesDir : Path
  outDir : Path
  fnNames : List String
  base : String
  unknownKeys : List (String × List String)
  silent : Bool
  dryRun : Bool

/-- How far a session has come. -/
inductive Phase where
  | uninitialized
  | loaded
  | accumulating
  | flushed
  deriving DecidableEq, Repr

/-- What leaving a session did. -/
inductive Flush where
  | clean
  | skipped
  | written (files : WrittenFiles)
  deriving DecidableEq, Repr

/-- Why a step of a session fails. -/
inductive SessionError where
  | alreadyFlushed
  | notLoaded
  | load (error : LoadError)
  | write (error : WriteError)
  deriving DecidableEq, Repr

/-- The words for a session error. -/
def SessionError.message : SessionError → String
  | .alreadyFlushed => "Extraction session was already flushed"
  | .notLoaded => "Locale catalog is not loaded"
  | .load error => error.message
  | .write error => error.message

/-- What a session tells its user while it runs. -/
inductive Notice where
  | noBaseLocale (base : String) (dir : Path)
  | wrote (dir : Path)
  deriving DecidableEq, Repr

/-- The line a notice is shown as. -/
def Notice.line (colored : Bool) : Notice → String
  | .noBaseLocale base dir =>
      (Text.Style.boldOf .yellow).paint colored "warning:" ++ " base language '" ++
        base ++ "' has no locale file in " ++ dir.text ++ "\n"
  | .wrote dir =>
      (Text.Style.boldOf .green).paint colored "info:" ++ " write lang strings to " ++
        dir.text ++ "\n"

/-- The state of one run. -/
structure Session where
  options : Options
  phase : Phase
  catalog : Option Catalog
  keys : List String
  untranslatedCounts : List (String × Nat)
  unknownCalls : List UnknownCall

namespace Session

/-- A session before its first step. -/
def start (options : Options) : Session :=
  ⟨options, .uninitialized, none, [], [], []⟩

/-- The expansions of a store, overridden by configured ones. -/
def expansionsOf (store : LocaleStore) (configured : List (String × List String)) :
    List (String × List String) :=
  configured.foldl
    (fun expansions (signature, keys) => Table.insert expansions signature keys)
    store.resolvedUnknowns

/-- The catalog of the locales on disk. -/
def loadCatalog (options : Options) (tree : FileTree) :
    Except LoadError (Catalog × List Notice) := do
  let store ← LocaleStore.load tree options.localesDir
  let notices :=
    if !options.silent && !store.contains options.base then
      [.noBaseLocale options.base options.localesDir]
    else []
  return (.ofStore store options.base (expansionsOf store options.unknownKeys), notices)

/-- What a step leaves behind. -/
structure Step where
  session : Session
  notices : List Notice
  result : Except SessionError Unit

/-- A step and another one after it, unless the first fails. -/
def Step.andThen (step : Step) (next : Session → Step) : Step :=
  match step.result with
  | .error _ => step
  | .ok () =>
      let later := next step.session
      { later with notices := step.notices ++ later.notices }

/-- A step that succeeds without a notice. -/
def done (session : Session) : Step :=
  ⟨session, [], .ok ()⟩

/-- A step that fails at once. -/
def failed (session : Session) (error : SessionError) : Step :=
  ⟨session, [], .error error⟩

/-- Start the run: load the locales, unless that was done. -/
def enter (session : Session) (tree : FileTree) : Step :=
  if session.phase = .flushed then session.failed .alreadyFlushed
  else if session.catalog.isSome then session.done
  else
    match loadCatalog session.options tree with
    | .error error => session.failed (.load error)
    | .ok (catalog, notices) =>
        ⟨{ session with catalog := some catalog, phase := .loaded }, notices, .ok ()⟩

/-- One more untranslated key for each of these locales. -/
def countUp (counts : List (String × Nat)) (locales : List String) :
    List (String × Nat) :=
  locales.foldl
    (fun counts locale =>
      Table.insert counts locale ((Table.get? counts locale).getD 0 + 1))
    counts

/-- A key taken into the sorted list of keys. -/
def insertKey (keys : List String) (key : String) : List String :=
  match keys with
  | [] => [key]
  | first :: rest =>
      if first = key then first :: rest
      else if key < first then key :: first :: rest
      else first :: insertKey rest key

/-- The session with a call merged into its catalog. -/
def merge (session : Session) (catalog : Catalog) (call : CallSite) : Session :=
  match call.key with
  | .literal key =>
      let (catalog, outcome) := catalog.addKey key
      { session with
        phase := .accumulating
        catalog := some catalog
        keys := insertKey session.keys key
        untranslatedCounts := countUp session.untranslatedCounts outcome.untranslated }
  | .unknown signature =>
      let (catalog, outcome) := catalog.addUnknown signature
      let (keys, expanded) := match outcome with
        | .expanded keys => (keys, true)
        | .recorded _ => ([], false)
      { session with
        phase := .accumulating
        catalog := some catalog
        keys := keys.foldl insertKey session.keys
        unknownCalls := session.unknownCalls ++ [⟨call.context, signature, expanded⟩] }

/-- Register a call; the first one loads the locales if that was not done. -/
def register (session : Session) (tree : FileTree) (call : CallSite) : Step :=
  (session.enter tree).andThen fun session =>
    match session.catalog with
    | some catalog => (session.merge catalog call).done
    | none => session.failed .notLoaded

/-- Register calls one after the other, up to the first failure. -/
def registerAll (session : Session) (tree : FileTree) : List CallSite → Step
  | [] => session.done
  | call :: rest =>
      (session.register tree call).andThen fun session => registerAll session tree rest

/-- What the end of a run leaves behind. -/
structure Exit where
  session : Session
  tree : FileTree
  result : Except SessionError Flush
  notices : List Notice

/-- End the run: write the merged files, if anything was merged. -/
def exit (session : Session) (tree : FileTree) : Exit :=
  if session.phase = .flushed then ⟨session, tree, .error .alreadyFlushed, []⟩
  else
    let session := { session with phase := .flushed }
    match session.catalog with
    | none => ⟨session, tree, .ok .clean, []⟩
    | some catalog =>
        if !catalog.dirty then ⟨session, tree, .ok .clean, []⟩
        else if session.options.dryRun then ⟨session, tree, .ok .skipped, []⟩
        else
          match LocaleFiles.write tree session.options.outDir catalog.outputs
              catalog.untranslated with
          | (tree, .error error) => ⟨session, tree, .error (.write error), []⟩
          | (tree, .ok files) =>
              let notices :=
                if session.options.silent then [] else [.wrote session.options.outDir]
              ⟨{ session with catalog := some catalog.markClean }, tree,
                .ok (.written files), notices⟩

end Session
end Phrasebook
