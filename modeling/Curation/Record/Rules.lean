import Curation.Catalog
import Curation.Record.Filters
import Curation.Staleness.Basic

/-!
# Records of rule sets, catalogs and staleness
-/

namespace Curation

open Record

/-- Reads a period. -/
def Period.ofJson? (value : Json) : Option Period := do
  let (name, content) ← tagged? "period" "count" value
  match name with
  | "today" => bare? .today content
  | "lastHours" => (filled? uint32? content).map .lastHours
  | "lastDays" => (filled? uint32? content).map .lastDays
  | "lastWeeks" => (filled? uint32? content).map .lastWeeks
  | "lastMonths" => (filled? uint32? content).map .lastMonths
  | "thisWeek" => bare? .thisWeek content
  | "thisMonth" => bare? .thisMonth content
  | "thisYear" => bare? .thisYear content
  | _ => none

/-- The period as a value. -/
def Period.toJson (period : Period) : Json :=
  let write (name : String) (count : UInt32) : Json :=
    .object [("count", ofNat count.toNat), ("period", .string name)]
  match period with
  | .today => writeBare "period" "today"
  | .lastHours count => write "lastHours" count
  | .lastDays count => write "lastDays" count
  | .lastWeeks count => write "lastWeeks" count
  | .lastMonths count => write "lastMonths" count
  | .thisWeek => writeBare "period" "thisWeek"
  | .thisMonth => writeBare "period" "thisMonth"
  | .thisYear => writeBare "period" "thisYear"

/-- Reads the two bounds of a range of numbers. -/
def readNumberRange? (value : Json) : Option Operand := do
  let members ← namedMembers? ["lo", "hi"] value
  let lo ← required? members "lo" double?
  let hi ← required? members "hi" double?
  some (.numberRange lo hi)

/-- Reads the two bounds of a range of instants. -/
def readDateRange? (value : Json) : Option Operand := do
  let members ← namedMembers? ["start", "end"] value
  let start ← required? members "start" Instant.ofJson?
  let stop ← required? members "end" Instant.ofJson?
  some (.dateRange start stop)

/-- Reads an operand. -/
def Operand.ofJson? (value : Json) : Option Operand := do
  let (name, content) ← tagged? "kind" "value" value
  match name with
  | "none" => bare? .none content
  | "text" => (filled? string? content).map .text
  | "number" => (filled? double? content).map .number
  | "bool" => (filled? bool? content).map .bool
  | "date" => (filled? Instant.ofJson? content).map .date
  | "period" => (filled? Period.ofJson? content).map .period
  | "numberRange" => filled? readNumberRange? content
  | "dateRange" => filled? readDateRange? content
  | _ => none

/-- The operand as a value. -/
def Operand.toJson (operand : Operand) : Json :=
  let write := writeTagged "kind" "value"
  match operand with
  | .none => writeBare "kind" "none"
  | .text s => write "text" (.string s)
  | .number d => write "number" (ofDouble d)
  | .bool b => write "bool" (.bool b)
  | .date t => write "date" t.toJson
  | .period p => write "period" p.toJson
  | .numberRange lo hi =>
    write "numberRange" (.object [("hi", ofDouble hi), ("lo", ofDouble lo)])
  | .dateRange start stop =>
    write "dateRange" (.object [("end", stop.toJson), ("start", start.toJson)])

/-- Reads a rule. -/
def Rule.ofJson? (value : Json) : Option Rule := do
  let members ← members?
    ["type", "comparator", "value", "negated", "excludeFavorites", "excludeBookmarked"] value
  let subject ← required? members "type" (choice? Attribute.all Attribute.name)
  let comparator ← required? members "comparator" (choice? Comparator.all Comparator.name)
  let operand ← withDefault? members "value" Operand.ofJson? .none
  let negated ← withDefault? members "negated" bool? false
  let excludeFavorites ← withDefault? members "excludeFavorites" bool? false
  let excludeBookmarked ← withDefault? members "excludeBookmarked" bool? false
  some { subject, comparator, operand, negated, excludeFavorites, excludeBookmarked }

/-- The rule as a value. -/
def Rule.toJson (rule : Rule) : Json :=
  .object
    [("comparator", .string rule.comparator.name),
      ("excludeBookmarked", .bool rule.excludeBookmarked),
      ("excludeFavorites", .bool rule.excludeFavorites),
      ("negated", .bool rule.negated),
      ("type", .string rule.subject.name),
      ("value", rule.operand.toJson)]

/-- Reads a rule set. -/
def RuleSet.ofJson? (value : Json) : Option RuleSet := do
  let members ← members?
    ["id", "name", "rules", "logic", "refreshIntervalSecs", "lastEvaluated", "sort"] value
  let id ← required? members "id" string?
  let name ← withDefault? members "name" string? ""
  let rules ← withDefault? members "rules" (list? Rule.ofJson?) []
  let logic ← required? members "logic" Combination.ofJson?
  let refreshIntervalSecs ← withDefault? members "refreshIntervalSecs" uint64? 3600
  let lastEvaluated ← optional? members "lastEvaluated" Instant.ofJson?
  let sort ← optional? members "sort" SortOrder.ofJson?
  some { id, name, rules, logic, refreshIntervalSecs, lastEvaluated, sort }

/-- The rule set as a value. -/
def RuleSet.toJson (set : RuleSet) : Json :=
  .object <|
    [("id", .string set.id)] ++
    member? "lastEvaluated" Instant.toJson set.lastEvaluated ++
    [("logic", set.logic.toJson),
      ("name", .string set.name),
      ("refreshIntervalSecs", ofNat set.refreshIntervalSecs.toNat),
      ("rules", .array (set.rules.map Rule.toJson))] ++
    member? "sort" SortOrder.toJson set.sort

/-- Reads the overrides of a catalog. -/
def readOverrides? : Json → Option (Std.ExtTreeMap String RuleSet)
  | .object members =>
    (members.mapM fun member => (RuleSet.ofJson? member.2).map (member.1, ·)).map
      (Std.ExtTreeMap.ofList ·)
  | _ => none

/-- Reads a catalog. -/
def Catalog.ofJson? (value : Json) : Option Catalog := do
  let members ← members? ["global", "collectionOverrides"] value
  let global ← required? members "global" RuleSet.ofJson?
  let overrides ← withDefault? members "collectionOverrides" readOverrides? ∅
  some { global, overrides }

/-- The catalog as a value. -/
def Catalog.toJson (catalog : Catalog) : Json :=
  .object
    [("collectionOverrides",
        .object (catalog.overrides.toList.map fun (name, set) => (name, set.toJson))),
      ("global", catalog.global.toJson)]

/-- Reads a state of staleness. -/
def StalenessState.ofJson? (value : Json) : Option StalenessState := do
  let members ← members? ["lastEvaluated", "invalidatedSince"] value
  let lastEvaluated ← optional? members "lastEvaluated" Instant.ofJson?
  let invalidatedSince ← optional? members "invalidatedSince" Instant.ofJson?
  some { lastEvaluated, invalidatedSince }

/-- The state of staleness as a value. -/
def StalenessState.toJson (state : StalenessState) : Json :=
  .object (member? "invalidatedSince" Instant.toJson state.invalidatedSince ++
    member? "lastEvaluated" Instant.toJson state.lastEvaluated)

end Curation
