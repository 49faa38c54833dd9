import Curation.Failure
import Curation.Text.Quoted

/-!
# Messages of failures
-/

namespace Curation

/-- The failure told in one line. -/
def Failure.message : Failure → String
  | .invalidLogic text =>
    "invalid combination logic " ++ Text.quoted text ++ ": expected AND or OR"
  | .invalidPeriod text => "Invalid date period: " ++ text
  | .invalidConfig reason => "Invalid configuration: " ++ reason
  | .invalidKey key => "Invalid storage key: " ++ key
  | .undecodable => "Record cannot be decoded"
  | .inaccessible => "File cannot be accessed"

end Curation
