import Curation.Number.Double

/-!
# JSON values

The values of JSON texts. A number is an integer or a double; an object is the list of its members.
The members of a document's objects stand in ascending order of their distinct names:
`sorted` brings any value into that form, the last of several members of one name being kept.
-/

namespace Curation

inductive Json where
  | null
  | bool (value : Bool)
  -- a number written without fraction and exponent
  | integer (value : Int)
  -- any other number
  | double (value : Double)
  | string (value : String)
  | array (elements : List Json)
  | object (members : List (String × Json))
  /-- A string in which a surrogate stands alone, which is no text, or an object in which such a
  string is the name of a member. -/
  | illegible
  deriving Inhabited

namespace Json

/-- The value of the first member of that name. -/
def get? : Json → String → Option Json
  | .object members, name => members.lookup name
  | _, _ => none

/-- Puts a member at its place among members in ascending order of names, instead of an earlier one
of its name. -/
def insertMember (name : String) (value : Json) : List (String × Json) → List (String × Json)
  | [] => [(name, value)]
  | (other, old) :: members =>
    if name < other then (name, value) :: (other, old) :: members
    else if name = other then (name, value) :: members
    else (other, old) :: insertMember name value members

mutual

/-- The value with the members of all its objects in ascending order of distinct names. -/
def sorted : Json → Json
  | .array elements => .array (sortedElements elements)
  | .object members => .object (sortedMembers [] members)
  | value => value

/-- The elements of an array, each with its objects in order. -/
def sortedElements : List Json → List Json
  | [] => []
  | value :: elements => value.sorted :: sortedElements elements

/-- The members put one after another into members that stand in order. -/
def sortedMembers (before : List (String × Json)) : List (String × Json) → List (String × Json)
  | [] => before
  | (name, value) :: members => sortedMembers (insertMember name value.sorted before) members

end

end Json

end Curation
