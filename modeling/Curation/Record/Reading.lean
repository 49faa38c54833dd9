import Curation.Json.Value

/-!
# Reading records

Records are read from JSON values. A record is an object, of whose members those without meaning are
passed over, or the array of its fields in order, of which the last ones may be left out. A choice
between named forms is the name, or an object with the name and nothing else. A named form with
content is an object with a member for each, or an array of both; fields that are the content of a
named form stand in an object.

* `namedMembers?`: the members of a record that is an object.
* `members?`: the members of a record.
* `required?`, `optional?`, `withDefault?`: the value of a field.
-/

namespace Curation.Record

/-- The fields of a record as they are written, by name. -/
abbrev Members := List (String × Json)

/-- The number of members of a name. -/
def occurrences (name : String) (members : Members) : Nat :=
  (members.filter fun member => member.1 == name).length

/-- The fields with the given names that stand in an object, of which none may be told twice. -/
def namedMembers? (names : List String) : Json → Option Members
  | .object members =>
    if names.all fun name => occurrences name members ≤ 1 then some members else none
  | _ => none

/-- The fields of a record with the given field names. -/
def members? (names : List String) : Json → Option Members
  | .array elements =>
    if elements.length ≤ names.length then some (names.zip elements) else none
  | value => namedMembers? names value

/-- The value of a field that a record has to have. -/
def required? (members : Members) (name : String) (read? : Json → Option α) : Option α :=
  (members.lookup name).bind read?

/-- The value of a field, or `default` if the record does not have it. -/
def withDefault? (members : Members) (name : String) (read? : Json → Option α) (default : α) :
    Option α :=
  match members.lookup name with
  | some value => read? value
  | none => some default

/-- The value of a field, or none if the record does not have it or its value is absent. -/
def optional? (members : Members) (name : String) (read? : Json → Option α) :
    Option (Option α) :=
  match members.lookup name with
  | some .null => some none
  | some value => (read? value).map some
  | none => some none

/-- A text. -/
def string? : Json → Option String
  | .string s => some s
  | _ => none

/-- A truth value. -/
def bool? : Json → Option Bool
  | .bool b => some b
  | _ => none

def integer? : Json → Option Int
  | .integer n => some n
  | _ => none

/-- An integer from zero on and below a bound. -/
def natural? (bound : Nat) : Json → Option Nat
  | .integer n => if 0 ≤ n ∧ n < bound then some n.toNat else none
  | _ => none

/-- An integer of 8 bits. -/
def uint8? (value : Json) : Option UInt8 := (natural? UInt8.size value).map UInt8.ofNat

/-- An integer of 32 bits. -/
def uint32? (value : Json) : Option UInt32 := (natural? UInt32.size value).map UInt32.ofNat

/-- An integer of 64 bits. -/
def uint64? (value : Json) : Option UInt64 := (natural? UInt64.size value).map UInt64.ofNat

/-- A number; an integer is rounded to the nearest double. -/
def double? : Json → Option Double
  | .integer n => some (Double.ofInt n)
  | .double d => some d
  | _ => none

/-- A sequence. -/
def list? (read? : Json → Option α) : Json → Option (List α)
  | .array elements => elements.mapM read?
  | _ => none

/-- The name of a choice without content. -/
def name? : Json → Option String
  | .string name => some name
  | .object [(name, .null)] => some name
  | _ => none

/-- One of several values that have names. -/
def choice? (values : List α) (name : α → String) (value : Json) : Option α :=
  (name? value).bind fun chosen => values.find? fun a => name a == chosen

/-- The name and the content of a choice, told by the members `tag` and `content`. -/
def tagged? (tag content : String) : Json → Option (String × Option Json)
  | .object members =>
    if occurrences tag members ≤ 1 ∧ occurrences content members ≤ 1 then
      ((members.lookup tag).bind name?).map fun name => (name, members.lookup content)
    else none
  | .array [first, second] => (name? first).map fun name => (name, some second)
  | _ => none

/-- The value of a choice that has no content. -/
def bare? (value : α) : Option Json → Option α
  | none => some value
  | some .null => some value
  | some _ => none

/-- The value of a choice with content. -/
def filled? (read? : Json → Option α) (content : Option Json) : Option α :=
  content.bind read?

/-- A double as a value; one that is not finite has no written form. -/
def ofDouble (d : Double) : Json := if d.isFinite then .double d else .null

/-- A natural number as a value. -/
def ofNat (n : Nat) : Json := .integer n

/-- A member for a field that the record may lack. -/
def member? (name : String) (write : α → Json) : Option α → Members
  | some a => [(name, write a)]
  | none => []

/-- A choice without content as a value. -/
def writeBare (tag name : String) : Json := .object [(tag, .string name)]

/-- A choice with content as a value, for a `tag` that stands before `content`. -/
def writeTagged (tag content name : String) (value : Json) : Json :=
  .object [(tag, .string name), (content, value)]

end Curation.Record
