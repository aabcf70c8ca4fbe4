import Phrasebook.Json.Double
import Phrasebook.Table

/-!
# JSON values

Objects keep their members in the order in which they were first written, so a
value has one printed form.  Equality of values, `Value.same`, ignores that
order: two objects are the same when they have the same members.
-/

namespace Phrasebook.Json

/-- A JSON number: an integer of the signed or unsigned 64-bit range, or a
finite double. -/
inductive Number where
  | integer (value : Int) (low : -0x8000000000000000 ≤ value)
      (high : value < 0x10000000000000000)
  | double (value : Double)
  deriving DecidableEq

namespace Number

/-- Equality of numbers of one kind.  An integer is never a double. -/
def same : Number → Number → Bool
  | .integer a _ _, .integer b _ _ => a == b
  | .double a, .double b => a.same b
  | _, _ => false

/-- Whether the number is zero, of either kind and sign. -/
def isZero : Number → Bool
  | .integer a _ _ => a == 0
  | .double a => a.isZero

/-- The printed form. -/
def text : Number → String
  | .integer a _ _ => if a < 0 then "-" ++ Nat.repr a.natAbs else Nat.repr a.natAbs
  | .double a => a.text

end Number

/-- A JSON value with ordered object members. -/
inductive Value where
  | null
  | bool (value : Bool)
  | number (value : Number)
  | string (value : String)
  | array (items : List Value)
  | object (members : List (String × Value))

instance : Inhabited Value := ⟨.null⟩

namespace Value

mutual

/-- Equality of values, blind to the order of object members. -/
def same : Value → Value → Bool
  | .null, .null => true
  | .bool a, .bool b => a == b
  | .number a, .number b => a.same b
  | .string a, .string b => a == b
  | .array a, .array b => sameItems a b
  | .object a, .object b => a.length == b.length && sameMembers a b
  | _, _ => false

/-- Item by item equality. -/
def sameItems : List Value → List Value → Bool
  | [], [] => true
  | a :: as, b :: bs => same a b && sameItems as bs
  | _, _ => false

/-- Whether each of the first members is a member of the second object. -/
def sameMembers : List (String × Value) → List (String × Value) → Bool
  | [], _ => true
  | (name, value) :: rest, members =>
      (match Table.get? members name with
        | some other => same value other
        | none => false) && sameMembers rest members

end

/-- Whether the value can hold other values. -/
def isContainer : Value → Bool
  | .array _ => true
  | .object _ => true
  | _ => false

/-- Whether a value counts as a translation: `null`, `false`, zero and the empty
string do not. -/
def isTruthy : Value → Bool
  | .null => false
  | .bool value => value
  | .number value => !value.isZero
  | .string value => value ≠ ""
  | .array _ => true
  | .object _ => true

/-- The member of an object with this name. -/
def member? (value : Value) (name : String) : Option Value :=
  match value with
  | .object members => Table.get? members name
  | _ => none

end Value
end Phrasebook.Json
