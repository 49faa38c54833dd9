import Curation.Rule.Basic
import Curation.Text.Quoted

/-!
# Rules without meaning

Why a rule cannot be compiled, and how that is told.
-/

namespace Curation

/-- The cause why a rule has no meaning. -/
inductive InvalidRule where
  | incompatibleComparator (subject : Attribute) (comparator : Comparator)
  | incompatibleValue (subject : Attribute) (comparator : Comparator) (kind : String)
  -- the comparator asks for bounds and there is no operand
  | missingBounds (comparator : Comparator)
  | reversedRange
  | unknownStatus (subject : Attribute) (text : String)
  | emptyText
  | invalidDate (text : String)
  -- the text tells no number, or the number is not finite
  | invalidNumber (text : String)
  deriving DecidableEq, Repr

/-- The cause told in one line. -/
def InvalidRule.message : InvalidRule → String
  | incompatibleComparator subject comparator =>
    "comparator " ++ comparator.name ++ " does not apply to " ++ subject.name
  | incompatibleValue subject comparator kind =>
    subject.name ++ " " ++ comparator.name ++ " cannot take a " ++ kind ++ " value"
  | missingBounds comparator => comparator.name ++ " requires bounds"
  | reversedRange => "range lower bound is after upper bound"
  | unknownStatus subject text =>
    "unknown " ++ subject.name ++ " value " ++ Text.quoted text
  | emptyText => "text operand is empty"
  | invalidDate text => "cannot read " ++ Text.quoted text ++ " as a calendar date"
  | invalidNumber text => "cannot read " ++ Text.quoted text ++ " as a number"

end Curation
