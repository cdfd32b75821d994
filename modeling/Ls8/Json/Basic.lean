/-!
# JSON values

Requests, answers and snapshots are JSON. Counts are natural numbers; every other number is
kept as it is written, for no document of the service has one.

* `Json`: a value. Members keep their order.
* `Json.member?`, `Json.isRecord`: a record may be written as an object or as the list of its
  fields in their order; these read both.
* `Json.natural?`, `Json.string?`, …: the value as one of a type.
* `Json.Optional`: a field that may be absent or `null`.
-/

namespace Ls8

inductive Json where
  | null
  | bool (value : Bool)
  /-- A number written as digits only. -/
  | natural (value : Nat)
  /-- A number with a sign, a fraction or an exponent. -/
  | number (literal : String)
  | string (value : String)
  /-- A string that leaves a surrogate without its partner, or an object with such a key:
  JSON allows it, but there is no such text. -/
  | illFormed
  | array (items : List Json)
  | object (members : List (String × Json))
  deriving Repr

namespace Json

/-! ## Values of a type -/

def bool? : Json → Option Bool
  | bool value => some value
  | _ => none

def string? : Json → Option String
  | string value => some value
  | _ => none

/-- A natural number below `bound`. -/
def natural? (bound : Nat) : Json → Option Nat
  | natural value => if value < bound then some value else none
  | _ => none

def byte? (value : Json) : Option UInt8 := (value.natural? 256).map (·.toUInt8)

def bytes? : Json → Option (List UInt8)
  | array items => items.mapM byte?
  | _ => none

/-! ## Records -/

/-- Whether the value can be a record with the given fields: an object that gives none of
them twice, or a list of as many items. Other members of an object do not matter. -/
def isRecord (fields : List String) : Json → Bool
  | object members => fields.all fun name => (members.filter (·.1 == name)).length ≤ 1
  | array items => items.length == fields.length
  | _ => false

/-- The field of a record that has a name in an object and a position in a list. -/
def member? (record : Json) (position : Nat) (name : String) : Option Json :=
  match record with
  | object members => members.lookup name
  | array items => items[position]?
  | _ => none

def required {α : Type} (record : Json) (position : Nat) (name : String)
    (read : Json → Option α) : Option α :=
  (record.member? position name).bind read

/-- A field that may be absent or `null`; the answer is `none` if it is there and cannot be
read. -/
def optional {α : Type} (record : Json) (position : Nat) (name : String)
    (read : Json → Option α) : Option (Option α) :=
  match record.member? position name with
  | none | some null => some none
  | some value => (read value).map some

/-- The value of a choice among names: the name, or an object that has it as its only key,
with `null`. -/
def choice? : Json → Option String
  | string name => some name
  | object [(name, null)] => some name
  | _ => none

/-! ## Writing values -/

def ofOption {α : Type} (write : α → Json) : Option α → Json
  | none => null
  | some value => write value

def ofBytes (bytes : List UInt8) : Json := array (bytes.map fun byte => natural byte.toNat)

end Json

end Ls8
