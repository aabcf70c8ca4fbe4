import Phrasebook.KeyPath
import Phrasebook.LocaleStore

/-!
# Catalogs

A catalog merges discovered keys into every locale.  Each locale has the
translations it came with (`input`), the mapping being built (`output`) and, once
a key lacked a translation of its own, a report of such keys.  A key takes the
locale's own translation, else the base language's, else its own text.

Calls without a literal key are kept under the reserved bucket, by their source
text, unless an expansion into keys is known for that text.
-/

namespace Phrasebook

open Json

/-- The state of one locale in a catalog. -/
structure LocaleMerge where
  name : String
  input : Value
  output : Value
  report : Option Value

/-- All locales of a catalog with the base language and the known expansions. -/
structure Catalog where
  base : String
  locales : List LocaleMerge
  expansions : List (String × List String)
  dirty : Bool

/-- What registering a key did: the locales that got it, and among them those
without a translation of their own. -/
structure KeyOutcome where
  added : List String
  untranslated : List String
  deriving DecidableEq, Repr

/-- What registering a call without a literal key did. -/
inductive UnknownOutcome where
  | expanded (keys : List String)
  | recorded (inserted : Bool)
  deriving DecidableEq, Repr

/-- Whether no locale got the key. -/
def KeyOutcome.isNoop (outcome : KeyOutcome) : Bool :=
  outcome.added.isEmpty

namespace LocaleMerge

/-- A locale before anything is merged. -/
def start (name : String) (input : Value) : LocaleMerge :=
  ⟨name, input, .object [], none⟩

/-- Whether a locale's output already has a translation at a key. -/
def has (locale : LocaleMerge) (key : String) : Bool :=
  (KeyPath.truthy? locale.output key).isSome

/-- The value a key gets: the own translation, that of the base language, or the
key itself. -/
def valueFor (locale : LocaleMerge) (baseValue : Option Value) (key : String) : Value :=
  ((KeyPath.truthy? locale.input key).or baseValue).getD (.string key)

/-- Whether a key counts as untranslated: in a locale other than the base, when
the locale has no translation of its own or the very one of the base. -/
def lacks (locale : LocaleMerge) (base : String) (baseValue : Option Value)
    (key : String) : Bool :=
  locale.name ≠ base &&
    match KeyPath.truthy? locale.input key with
    | none => true
    | some own => baseValue.any own.same

/-- Merge a key that the output does not have yet. -/
def add (locale : LocaleMerge) (base : String) (baseValue : Option Value)
    (key : String) : LocaleMerge :=
  let value := locale.valueFor baseValue key
  { locale with
    output := KeyPath.set locale.output key value
    report :=
      if locale.lacks base baseValue key then
        some (KeyPath.set (locale.report.getD (.object [])) key value)
      else locale.report }

/-- Merge a key, unless the output has it. -/
def register (locale : LocaleMerge) (base : String) (baseValue : Option Value)
    (key : String) : LocaleMerge :=
  if locale.has key then locale else locale.add base baseValue key

end LocaleMerge

namespace Catalog

/-- The catalog of a store before anything is merged. -/
def ofStore (store : LocaleStore) (base : String)
    (expansions : List (String × List String)) : Catalog :=
  { base
    locales := store.locales.map fun (name, input) => .start name input
    expansions
    dirty := false }

/-- The locale names in increasing order. -/
def names (catalog : Catalog) : List String :=
  catalog.locales.map LocaleMerge.name

/-- The merged mapping of each locale. -/
def outputs (catalog : Catalog) : List (String × Value) :=
  catalog.locales.map fun locale => (locale.name, locale.output)

/-- The reports of the locales that have one. -/
def untranslated (catalog : Catalog) : List (String × Value) :=
  catalog.locales.filterMap fun locale => locale.report.map fun report =>
    (locale.name, report)

/-- The translations a locale came with. -/
def input? (catalog : Catalog) (name : String) : Option Value :=
  (catalog.locales.find? fun locale => locale.name = name).map LocaleMerge.input

/-- The base language's translation of a key. -/
def baseValue? (catalog : Catalog) (key : String) : Option Value :=
  (catalog.input? catalog.base).bind fun input => KeyPath.truthy? input key

/-- Whether a key can be registered: it has a segment, and the first one is not
the reserved bucket. -/
def accepts (key : String) : Bool :=
  match KeyPath.segments key with
  | [] => false
  | first :: _ => first ≠ unknownBucket

/-- Register a key in every locale that does not have it yet. -/
def addKey (catalog : Catalog) (key : String) : Catalog × KeyOutcome :=
  if accepts key then
    let baseValue := catalog.baseValue? key
    let fresh := catalog.locales.filter fun locale => !locale.has key
    let lacking := fresh.filter fun locale => locale.lacks catalog.base baseValue key
    ({ catalog with
        locales := catalog.locales.map fun locale =>
          locale.register catalog.base baseValue key
        dirty := catalog.dirty || !fresh.isEmpty },
      ⟨fresh.map LocaleMerge.name, lacking.map LocaleMerge.name⟩)
  else (catalog, ⟨[], []⟩)

/-- Register keys one after the other. -/
def addKeys (catalog : Catalog) (keys : List String) : Catalog :=
  keys.foldl (fun catalog key => (catalog.addKey key).1) catalog

/-- Whether an output's bucket has a signature. -/
def bucketHas (output : Value) (signature : String) : Bool :=
  match output.member? unknownBucket with
  | some (.object bucket) => Table.contains bucket signature
  | _ => false

/-- Whether an output can take a signature it does not have. -/
def takesUnknown (output : Value) (signature : String) : Bool :=
  match output with
  | .object _ => !bucketHas output signature
  | _ => false

/-- An object with a signature in its bucket.  The bucket is made its first
member when there is none. -/
def insertUnknown (members : List (String × Value)) (signature : String) :
    List (String × Value) :=
  match Table.get? members unknownBucket with
  | some (.object bucket) =>
      Table.put members unknownBucket
        (.object (Table.put bucket signature (.string signature)))
  | _ =>
      (unknownBucket, .object [(signature, .string signature)]) ::
        Table.erase members unknownBucket

/-- A locale with a signature in the bucket of its output. -/
def recordUnknown (locale : LocaleMerge) (signature : String) : LocaleMerge :=
  match locale.output with
  | .object members =>
      if bucketHas locale.output signature then locale
      else { locale with output := .object (insertUnknown members signature) }
  | _ => locale

/-- Register a call by its source text: its keys if an expansion is known, else
the text itself in every bucket. -/
def addUnknown (catalog : Catalog) (signature : String) : Catalog × UnknownOutcome :=
  match Table.get? catalog.expansions signature with
  | some keys => (catalog.addKeys keys, .expanded keys)
  | none =>
      let inserted := catalog.locales.any fun locale =>
        takesUnknown locale.output signature
      ({ catalog with
          locales := catalog.locales.map fun locale => recordUnknown locale signature
          dirty := catalog.dirty || inserted },
        .recorded inserted)

/-- The catalog once it has been written. -/
def markClean (catalog : Catalog) : Catalog :=
  { catalog with dirty := false }

end Catalog
end Phrasebook
