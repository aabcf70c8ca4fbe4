import Phrasebook.Json.Value
import Phrasebook.Text.Runs

/-!
# Key paths

A key such as `home.title` or `faq.items[0].question` addresses a place inside a
nested value: points and brackets separate its segments, and empty segments do
not count.  Reading is total, a miss is `none`.  Writing creates the containers
it needs: an array where the next segment is an index, else an object.
-/

namespace Phrasebook.KeyPath

open Json

/-- The characters between segments. -/
def isSeparator (c : Char) : Bool :=
  c == '.' || c == '[' || c == ']'

/-- The segments of a key. -/
def segments (key : String) : List String :=
  (Text.runs isSeparator key.toList).map String.ofList

/-- The largest segment that is an array index. -/
def maxIndex : Nat := 0x7FFFFFFF

/-- The number written by a nonempty list of digits. -/
def decimal? (digits : List Char) : Option Nat :=
  if digits ≠ [] ∧ digits.all Char.isDigit then
    some (digits.foldl (fun value c => value * 10 + (c.toNat - '0'.toNat)) 0)
  else none

/-- The array index a segment stands for: decimal digits, with or without a plus
sign, up to `maxIndex`. -/
def index? (segment : String) : Option Nat :=
  let digits := match segment.toList with
    | '+' :: rest => rest
    | rest => rest
  (decimal? digits).filter (· ≤ maxIndex)

/-- Whether a segment is an array index. -/
def isIndex (segment : String) : Bool :=
  (index? segment).isSome

/-- The value one segment below a value. -/
def child? (value : Value) (segment : String) : Option Value :=
  match value with
  | .object members => Table.get? members segment
  | .array items => (index? segment).bind fun i => items[i]?
  | _ => none

/-- The value reached by following segments. -/
def follow? (value : Value) (path : List String) : Option Value :=
  match path with
  | [] => some value
  | segment :: rest => (child? value segment).bind fun value => follow? value rest

/-- The truthy member whose name is the whole key. -/
def direct? (container : Value) (key : String) : Option Value :=
  (container.member? key).filter Value.isTruthy

/-- The value at a key.  A truthy member named by the whole key comes before the
place its segments address; a key without segments addresses nothing. -/
def get? (container : Value) (key : String) : Option Value :=
  match direct? container key with
  | some value => some value
  | none =>
      match segments key with
      | [] => none
      | path => follow? container path

/-- The value at a key, if it counts as a translation. -/
def truthy? (container : Value) (key : String) : Option Value :=
  (get? container key).filter Value.isTruthy

/-- The value at a key, or a default. -/
def getD (container : Value) (key : String) (default : Value) : Value :=
  (get? container key).getD default

/-- The container to write into at a place whose next segments are `path`: the
one that is there, or a new empty one that fits the next segment. -/
def prepared (path : List String) (slot : Value) : Value :=
  match path with
  | [] => slot
  | segment :: _ =>
      if slot.isContainer then slot
      else if isIndex segment then .array []
      else .object []

/-- A list with one place overwritten, padded with `null` up to that place. -/
def putItem (items : List Value) (i : Nat) (value : Value) : List Value :=
  match items, i with
  | [], 0 => [value]
  | [], i + 1 => .null :: putItem [] i value
  | _ :: rest, 0 => value :: rest
  | item :: rest, i + 1 => item :: putItem rest i value

/-- The value with what is in the slot of a segment changed.  The slot is made for it:
a missing member is added at the end, and an array is padded up to the index.  An array
has no slot for a segment that is no index, and a scalar has none at all. -/
def update (value : Value) (segment : String) (change : Value → Value) : Value :=
  match value with
  | .object members =>
      .object (Table.put members segment
        (change ((Table.get? members segment).getD .null)))
  | .array items =>
      match index? segment with
      | some i => .array (putItem items i (change (items[i]?.getD .null)))
      | none => .array items
  | other => other

/-- Write at the end of a path, one slot after the other, making containers on the
way.  Where there is no slot for the next segment, the writing ends, and what was made
before it stays. -/
def assign (value : Value) (path : List String) (new : Value) : Value :=
  match path with
  | [] => new
  | segment :: rest =>
      update value segment fun slot => assign (prepared rest slot) rest new

/-- The container with a value at a key.  A key without segments has no place. -/
def set (container : Value) (key : String) (value : Value) : Value :=
  match segments key with
  | [] => container
  | path => assign container path value

end Phrasebook.KeyPath
