/-!
# Failures

Why an operation has no answer.
-/

namespace Curation

/-- The cause of a failed operation. -/
inductive Failure where
  | invalidLogic (text : String)
  | invalidPeriod (text : String)
  | invalidConfig (reason : String)
  | invalidKey (key : String)
  -- a document that is not the record asked for
  | undecodable
  -- a file that cannot be read or written
  | inaccessible
  deriving DecidableEq, Repr

end Curation
