import Curation.Number.Double
import Curation.Query.Evaluation

/-!
# Scores

A hit counts by its field and by the share of the field that it covers; a phrase counts as if it
covered the whole field. The score of a match is the sum over its hits. Scores are doubles, and
every operation on them rounds.
-/

namespace Curation

namespace Field

/-- What a full hit in the field is worth. -/
def baseScore : Field → Double
  | title => Double.ofNat 10
  | collectionName => Double.ofNat 7
  | description => Double.ofNat 5
  | duration => Double.ofNat 3
  | publishDate => Double.ofNat 3

/-- How much the field counts. -/
def weight : Field → Double
  | title => Double.ofNat 3
  | collectionName => Double.ofNat 2
  | description => Double.ofNat 1
  | duration => Double.ofRatio false 1 2
  | publishDate => Double.ofRatio false 1 2

end Field

namespace Hit

/-- The share of the field that the hit covers, at most one. -/
def completeness (hit : Hit) : Double :=
  if hit.isPhrase then Double.ofNat 1
  else if hit.fieldLength = 0 then Double.zero
  else ((Double.ofNat (hit.stop - hit.start)).div (Double.ofNat hit.fieldLength)).min
    (Double.ofNat 1)

/-- What the hit counts. -/
def score (hit : Hit) : Double :=
  (hit.field.baseScore.mul hit.field.weight).mul hit.completeness

end Hit

/-- The sum of what the hits count, added from the first on to negative zero, which adds nothing to
any number. -/
def totalScore (hits : List Hit) : Double :=
  hits.foldl (fun sum hit => sum.add hit.score) Double.zero.neg

end Curation
