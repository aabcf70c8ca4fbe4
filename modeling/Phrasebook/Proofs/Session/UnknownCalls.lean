import Phrasebook.Proofs.Catalog.Signatures
import Phrasebook.Proofs.Session.Log

/-!
# Calls without a literal key

Every call without a literal key is recorded.  Unless an expansion stands for it, its text
is in the bucket of every output, and a strict run reports it.  If one does, every key of
the expansion that can be registered has a translation in every output where its path is
not blocked.
-/

namespace Phrasebook

open Json KeyPath

namespace Catalog

variable {store : LocaleStore} {base : String} {operations : List Operation}
variable {expansions : List (String × List String)}

/-- The bucket of every output has the recorded signatures. -/
theorem bucket_of_recorded {signature : String} {entry : String × Value}
    (recorded : signature ∈ recordedSignatures expansions operations)
    (present : entry ∈ ((ofStore store base expansions).run operations).outputs) :
    ∃ bucket, entry.2.member? unknownBucket = some (.object bucket) ∧
      Table.get? bucket signature = some (.string signature) := by
  have mapping : Mapping (content store base expansions operations entry.1) := mapping_content
  obtain ⟨members, content, _⟩ := mapping
  refine ⟨bucketEntries (recordedSignatures expansions operations), ?_, ?_⟩
  · rw [outputs_eq_content present, content, withBucket_object (List.ne_nil_of_mem recorded)]
    simp [Value.member?, Table.get?]
  · rw [get?_bucketEntries, if_pos recorded]

end Catalog

namespace Session

open Catalog

variable {options : Options} {session : Session} {made : List Registration}
variable {expansions : List (String × List String)}

/-- A recorded call was registered, and it counts as expanded if an expansion is known. -/
theorem mem_unknownCalls {call : UnknownCall} :
    call ∈ made.filterMap (Registration.unknownCall? expansions) ↔
      ∃ registration ∈ made,
        registration.call = ⟨call.context, .unknown call.signature⟩ ∧
          call.expanded = (Table.get? expansions call.signature).isSome := by
  rw [List.mem_filterMap]
  apply exists_congr
  intro registration
  apply and_congr_right
  intro _
  obtain ⟨⟨context, key⟩, answers⟩ := registration
  obtain ⟨place, signature, expanded⟩ := call
  cases key with
  | literal key => simp [Registration.unknownCall?]
  | unknown text =>
      simp only [Registration.unknownCall?, Option.some.injEq, UnknownCall.mk.injEq,
        CallSite.mk.injEq, CallKey.unknown.injEq]
      constructor
      · rintro ⟨rfl, rfl, rfl⟩
        exact ⟨⟨rfl, rfl⟩, rfl⟩
      · rintro ⟨⟨rfl, rfl⟩, rfl⟩
        exact ⟨rfl, rfl, rfl⟩

/-- The calls recorded are those registered without a literal key, in order. -/
theorem unknownCalls_eq_filter (made : List Registration) :
    (made.filterMap (Registration.unknownCall? expansions)).map
        (fun call => CallSite.mk call.context (.unknown call.signature)) =
      (made.filter fun registration => !registration.isDirect).map Registration.call := by
  induction made with
  | nil => rfl
  | cons registration rest ih =>
      obtain ⟨⟨context, key⟩, answers⟩ := registration
      cases key with
      | literal key => exact ih
      | unknown text => exact congrArg (List.cons ⟨context, .unknown text⟩) ih

/-- Every call registered without a literal key is recorded.  One that is not expanded is in
the bucket of every output.  One that is expanded has left, in every output, a translation of
each key of its expansion that can be registered and is not blocked there. -/
theorem unknown_calls_leave_a_trace (options : Options) (tree : FileTree)
    (actions : List Action) :
    let first : Setting := ⟨start options, tree⟩
    let session := (first.run actions).session
    session.unknownCalls.map (fun call => CallSite.mk call.context (.unknown call.signature)) =
        ((first.log actions).filter fun made => !made.isDirect).map Registration.call ∧
      ∀ catalog, session.catalog = some catalog →
        (∃ store, catalog.inputs = store.locales ∧
          catalog.expansions = expansionsOf store options.unknownKeys) ∧
        ∀ call ∈ session.unknownCalls, ∀ entry ∈ catalog.outputs,
          (call.expanded = false →
            ∃ bucket, entry.2.member? unknownBucket = some (.object bucket) ∧
              Table.get? bucket call.signature = some (.string call.signature)) ∧
          (call.expanded = true →
            ∃ keys, Table.get? catalog.expansions call.signature = some keys ∧
              ∀ key ∈ keys, accepts key = true →
                (∃ value, get? entry.2 key = some value ∧ value.isTruthy = true) ∨
                  Blocked entry.2 (segments key)) := by
  intro first session
  have account : Account options (first.log actions) session :=
    account_run options tree actions
  constructor
  · rw [account.calls]
    exact unknownCalls_eq_filter _
  · intro catalog held
    obtain ⟨store, final, merged, outputs, inputs, expansions⟩ := account.held held
    have known := expansions.trans merged.expansions
    refine ⟨⟨store, inputs.trans merged.inputs, known⟩, ?_⟩
    intro call recorded entry present
    rw [account.calls, held, Option.map_some, Option.getD_some, known] at recorded
    obtain ⟨registration, member, asked, expanded⟩ := mem_unknownCalls.mp recorded
    have operation : .unknown call.signature ∈ operationsOf (first.log actions) := by
      refine List.mem_map.mpr ⟨registration, member, ?_⟩
      rw [asked]
      rfl
    rw [outputs, merged.catalog, firstCatalog] at present
    constructor
    · intro unexpanded
      have none : Table.get? (expansionsOf store options.unknownKeys) call.signature = none := by
        rw [unexpanded] at expanded
        simpa using expanded.symm
      exact bucket_of_recorded (mem_recordedSignatures.mpr ⟨operation, none⟩) present
    · intro isExpanded
      rw [isExpanded] at expanded
      obtain ⟨keys, found⟩ := Option.isSome_iff_exists.mp expanded.symm
      refine ⟨keys, by rw [known, found], ?_⟩
      intro key listed accepted
      have registered : key ∈ registeredKeys (expansionsOf store options.unknownKeys)
          (operationsOf (first.log actions)) := by
        refine List.mem_flatMap.mpr ⟨.unknown call.signature, operation, ?_⟩
        rw [Operation.keys, found]
        exact listed
      exact get?_or_blocked_outputs accepted registered (get?_of_mem_outputs present)

-- A call without an expansion has a place for it in the output.
example :
    let session := ((Setting.mk (start bareOptions) bareTree).run [unknownCall "t(x)"]).session
    session.outputs.map (fun output => (output.2.member? unknownBucket).isSome) = [true] := by
  decide +kernel

/-- The options of the project with expansions of three calls. -/
def pageOptions : Options :=
  { bareOptions with
    unknownKeys := [("t(page)", ["nav.home"]), ("t(part)", ["__UNKNOWN.home", "[]"]),
      ("t(item)", ["list.name"])] }

/-- A call that is not expanded and one that is. -/
def pageCalls : List Action :=
  [unknownCall "t(x)", unknownCall "t(page)"]

theorem page_calls_leave_a_trace :
    let session := ((Setting.mk (start pageOptions) pairTree).run pageCalls).session
    ∃ catalog, session.catalog = some catalog ∧
      ∃ entry ∈ catalog.outputs, entry.1 = "fr" ∧
        (∃ bucket, entry.2.member? unknownBucket = some (.object bucket) ∧
          Table.get? bucket "t(x)" = some (.string "t(x)")) ∧
        ∃ keys, Table.get? catalog.expansions "t(page)" = some keys ∧
          ∀ key ∈ keys, accepts key = true →
            (∃ value, get? entry.2 key = some value ∧ value.isTruthy = true) ∨
              Blocked entry.2 (segments key) := by
  intro session
  have loaded : session.catalog.isSome := by decide +kernel
  obtain ⟨catalog, held⟩ := Option.isSome_iff_exists.mp loaded
  have french : "fr" ∈ Table.names session.outputs := by decide +kernel
  rw [outputs, held] at french
  obtain ⟨entry, present, named⟩ := List.mem_map.mp french
  have trace := ((unknown_calls_leave_a_trace pageOptions pairTree pageCalls).2 catalog held).2
  have recorded : session.unknownCalls =
      [⟨default, "t(x)", false⟩, ⟨default, "t(page)", true⟩] := by decide +kernel
  refine ⟨catalog, held, entry, present, named, ?_, ?_⟩
  · exact (trace ⟨default, "t(x)", false⟩ (by rw [recorded]; simp) entry present).1 rfl
  · exact (trace ⟨default, "t(page)", true⟩ (by rw [recorded]; simp) entry present).2 rfl

/-- Calls count as expanded, and are not in the bucket, though no key of their expansion has a
translation: the keys cannot be registered, or their path is blocked. -/
theorem expanded_calls_without_a_key :
    let session := ((Setting.mk (start pageOptions) pairTree).run
      [literalCall "list.0", unknownCall "t(part)", unknownCall "t(item)"]).session
    session.unknownCalls = [⟨default, "t(part)", true⟩, ⟨default, "t(item)", true⟩] ∧
      session.outputs.map Prod.fst = ["en", "fr"] ∧
      ∀ entry ∈ session.outputs,
        (entry.2.member? unknownBucket).isNone = true ∧
          ∀ key ∈ ["__UNKNOWN.home", "[]", "list.name"], (get? entry.2 key).isNone = true := by
  decide +kernel

end Session
end Phrasebook
