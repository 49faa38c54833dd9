import Curation.Proofs.Record.Filters
import Curation.Proofs.Record.Staleness

/-!
# Reading records of rule sets and catalogs

Rule sets, catalogs and states of staleness are read back from their records as they were, if their
numbers are finite, which others have no written form, and if the text of each of their instants
tells that instant.

* `Instant.IsTold`: the instants that their texts tell.
* `RuleSet.IsFaithful`, `Catalog.IsFaithful`, `StalenessState.IsFaithful`: the records without
  anything that has no written form of its own.
* `RuleSet.ofJson?_toJson`, `Catalog.ofJson?_toJson`,
  `StalenessState.ofJson?_toJson_of_isFaithful`: they are read back.
-/

namespace Curation

open Record

/-- The text of the instant tells it. -/
def Instant.IsTold (t : Instant) : Prop := ofText? t.text = some t

instance (t : Instant) : Decidable t.IsTold := inferInstanceAs (Decidable (_ = _))

/-- An instant that records tell is read back. -/
theorem Instant.IsTold.ofJson?_toJson {t : Instant} (h : t.IsTold) : ofJson? t.toJson = some t := by
  rw [Instant.ofJson?, toJson, string?, Option.bind_some, h]

/-- The numbers of the operand are finite, and its instants told by their texts. -/
def Operand.IsFaithful : Operand → Prop
  | number d => d.isFinite
  | numberRange lo hi => lo.isFinite ∧ hi.isFinite
  | date t => t.IsTold
  | dateRange start stop => start.IsTold ∧ stop.IsTold
  | none | text _ | bool _ | period _ => True

/-- The operands of all rules have a written form, and so has the instant of evaluation. -/
def RuleSet.IsFaithful (set : RuleSet) : Prop :=
  (∀ rule ∈ set.rules, rule.operand.IsFaithful) ∧ ∀ t ∈ set.lastEvaluated, t.IsTold

/-- All rule sets of the catalog have a written form. -/
def Catalog.IsFaithful (catalog : Catalog) : Prop :=
  catalog.global.IsFaithful ∧ ∀ entry ∈ catalog.overrides.toList, entry.2.IsFaithful

/-- Both instants are told by their texts. -/
def StalenessState.IsFaithful (state : StalenessState) : Prop :=
  (∀ t ∈ state.lastEvaluated, t.IsTold) ∧ ∀ t ∈ state.invalidatedSince, t.IsTold

/-- A state is read back if records tell its instants. -/
theorem StalenessState.ofJson?_toJson_of_isFaithful {state : StalenessState}
    (h : state.IsFaithful) : ofJson? state.toJson = some state := by
  rw [ofJson?_toJson_of (f := id) (fun t ht => (h.1 t ht).ofJson?_toJson)
    fun t ht => (h.2 t ht).ofJson?_toJson, Option.map_id]
  rfl

/-- An attribute is the choice that its name makes. -/
theorem Attribute.choice?_name (subject : Attribute) :
    choice? all name (.string subject.name) = some subject := by
  cases subject <;> decide +kernel

theorem Comparator.choice?_name (comparator : Comparator) :
    choice? all name (.string comparator.name) = some comparator := by
  cases comparator <;> decide +kernel

theorem Period.ofJson?_toJson (period : Period) : ofJson? period.toJson = some period := by
  have hne : "period" ≠ "count" := by decide
  cases period
  -- periods without a count are told by their name alone
  case today | thisWeek | thisMonth | thisYear =>
    refine bind_tagged?_writeBare hne fun told htold => ?_
    dsimp only
    split <;> first | contradiction | exact absurd htold (by decide) | rfl
  -- the count is told before the name
  case lastHours count | lastDays count | lastWeeks count | lastMonths count =>
    refine bind_tagged?_contentFirst hne fun told htold => ?_
    dsimp only
    split <;> first
      | contradiction
      | exact absurd htold (by decide)
      | exact map_filled?_of_eq (uint32?_ofNat count)

/-- A finite double is read back from its value. -/
theorem Record.double?_ofDouble {d : Double} (h : d.isFinite) : double? (ofDouble d) = some d := by
  rw [ofDouble, if_pos h, double?]

/-- A range of numbers is read back from its bounds if both are finite. -/
theorem readNumberRange?_object {lo hi : Double} (hlo : lo.isFinite) (hhi : hi.isFinite) :
    readNumberRange? (.object [("hi", ofDouble hi), ("lo", ofDouble lo)]) =
      some (.numberRange lo hi) := by
  rw [readNumberRange?, namedMembers?_object (by simp)]
  refine bind_eq_some rfl (bind_eq_some (a := lo) ?_ (bind_eq_some (a := hi) ?_ rfl))
  · exact (required?_of_lookup (by simp [List.lookup_cons])).trans (double?_ofDouble hlo)
  · exact (required?_of_lookup (by simp)).trans (double?_ofDouble hhi)

/-- A range of dates is read back from its ends if records tell both. -/
theorem readDateRange?_object {start stop : Instant} (hstart : start.IsTold) (hstop : stop.IsTold) :
    readDateRange? (.object [("end", stop.toJson), ("start", start.toJson)]) =
      some (.dateRange start stop) := by
  rw [readDateRange?, namedMembers?_object (by simp)]
  refine bind_eq_some rfl (bind_eq_some (a := start) ?_ (bind_eq_some (a := stop) ?_ rfl))
  · exact (required?_of_lookup (by simp [List.lookup_cons])).trans hstart.ofJson?_toJson
  · exact (required?_of_lookup (by simp)).trans hstop.ofJson?_toJson

/-- An operand is read back if records tell all of it. -/
theorem Operand.ofJson?_toJson {operand : Operand} (h : operand.IsFaithful) :
    ofJson? operand.toJson = some operand := by
  have hne : "kind" ≠ "value" := by decide
  cases operand
  case none =>
    refine bind_tagged?_writeBare hne fun told htold => ?_
    dsimp only
    split <;> first | contradiction | exact absurd htold (by decide) | rfl
  all_goals
    dsimp only [IsFaithful] at h
    refine bind_tagged?_writeTagged hne fun told htold => ?_
    dsimp only
    split
  -- of the alternatives, only the one for the name told is left
  all_goals try first | exact absurd htold (by decide) | exact absurd htold ‹_›
  case h_3 => exact map_filled?_of_eq (double?_ofDouble h)
  case h_5 => exact map_filled?_of_eq h.ofJson?_toJson
  case h_6 => exact map_filled?_of_eq (Period.ofJson?_toJson _)
  case h_7 => exact filled?_of_eq (readNumberRange?_object h.1 h.2)
  case h_8 => exact filled?_of_eq (readDateRange?_object h.1 h.2)
  all_goals rfl

/-- A rule is read back if records tell its operand. -/
theorem Rule.ofJson?_toJson {rule : Rule} (h : rule.operand.IsFaithful) :
    ofJson? rule.toJson = some rule := by
  rw [toJson, ofJson?, members?_object (by simp)]
  refine bind_eq_some rfl (bind_eq_some (a := rule.subject) ?_
    (bind_eq_some (a := rule.comparator) ?_ (bind_eq_some (a := rule.operand) ?_
      (bind_eq_some (a := rule.negated) ?_ (bind_eq_some (a := rule.excludeFavorites) ?_
        (bind_eq_some (a := rule.excludeBookmarked) ?_ rfl))))))
  · exact (required?_of_lookup (by simp [List.lookup_cons])).trans (Attribute.choice?_name _)
  · exact (required?_of_lookup (by simp)).trans (Comparator.choice?_name _)
  · exact (withDefault?_of_lookup (by simp [List.lookup_cons])).trans (Operand.ofJson?_toJson h)
  · exact withDefault?_of_lookup (v := .bool rule.negated) (by simp [List.lookup_cons])
  · exact withDefault?_of_lookup (v := .bool rule.excludeFavorites)
      (by simp [List.lookup_cons])
  · exact withDefault?_of_lookup (v := .bool rule.excludeBookmarked)
      (by simp [List.lookup_cons])

namespace RuleSet

/-- The members of the record of a rule set. -/
def members (set : RuleSet) : Members :=
  [("id", .string set.id)] ++
    (member? "lastEvaluated" Instant.toJson set.lastEvaluated ++
      ([("logic", set.logic.toJson), ("name", .string set.name),
        ("refreshIntervalSecs", ofNat set.refreshIntervalSecs.toNat),
        ("rules", .array (set.rules.map Rule.toJson))] ++
      member? "sort" SortOrder.toJson set.sort))

theorem toJson_eq_object (set : RuleSet) : set.toJson = .object set.members := by
  simp [toJson, members]

/-- The members of a rule set have different names. -/
theorem nodup_members (set : RuleSet) : (set.members.map (·.1)).Nodup := by
  rw [members]
  cases set.lastEvaluated <;> cases set.sort <;> simp [member?]

/-- The member `logic` of a rule set holds its combination. -/
theorem lookup_logic (set : RuleSet) : set.members.lookup "logic" = some set.logic.toJson := by
  simp [members, lookup_member?, List.lookup_cons]

/-- A rule set is read back if records tell the operands of its rules. -/
theorem ofJson?_toJson {set : RuleSet} (h : set.IsFaithful) : ofJson? set.toJson = some set := by
  -- the fields that may be absent
  have hlast : optional? set.members "lastEvaluated" Instant.ofJson? = some set.lastEvaluated := by
    refine optional?_of_lookup_map_self Instant.toJson ?_ (fun t ht => (h.2 t ht).ofJson?_toJson)
      Instant.toJson_ne_null
    simp [members, lookup_member?, lookup_member?_nil, List.lookup_cons]
  have hsort : optional? set.members "sort" SortOrder.ofJson? = some set.sort := by
    refine optional?_of_lookup_map_self SortOrder.toJson ?_ (fun order _ => order.ofJson?_toJson)
      SortOrder.toJson_ne_null
    simp [members, lookup_member?, lookup_member?_nil, List.lookup_cons]
  -- no name occurs twice, so every field is found by its name
  rw [toJson_eq_object, ofJson?, members?_object set.nodup_members]
  refine bind_eq_some rfl (bind_eq_some (a := set.id) ?_ (bind_eq_some (a := set.name) ?_
    (bind_eq_some (a := set.rules) ?_ (bind_eq_some (a := set.logic) ?_
      (bind_eq_some (a := set.refreshIntervalSecs) ?_
        (bind_eq_some hlast (bind_eq_some hsort rfl)))))))
  · exact required?_of_lookup (v := .string set.id) (by simp [members])
  · exact withDefault?_of_lookup (v := .string set.name)
      (by simp [members, lookup_member?, List.lookup_cons])
  · exact (withDefault?_of_lookup (by simp [members, lookup_member?, List.lookup_cons])).trans
      (list?_map fun rule hrule => Rule.ofJson?_toJson (h.1 rule hrule))
  · exact (required?_of_lookup set.lookup_logic).trans (Combination.ofJson?_toJson _)
  · exact (withDefault?_of_lookup (by simp [members, lookup_member?, List.lookup_cons])).trans
      (uint64?_ofNat _)

end RuleSet

namespace Catalog

/-- A map is made again from its entries. -/
theorem ofList_toList (overrides : Std.ExtTreeMap String α) :
    Std.ExtTreeMap.ofList overrides.toList = overrides := by
  refine Std.ExtTreeMap.ext_getElem? fun name => ?_
  cases h : overrides[name]? with
  | some a =>
    exact Std.ExtTreeMap.getElem?_ofList_of_mem Std.ReflCmp.compare_self
      overrides.distinct_keys_toList (Std.ExtTreeMap.mem_toList_iff_getElem?_eq_some.mpr h)
  | none =>
    refine Std.ExtTreeMap.getElem?_ofList_of_contains_eq_false ?_
    simpa [List.contains_eq_mem] using h

/-- The overrides of a catalog are read back from their members. -/
theorem readOverrides?_object {overrides : Std.ExtTreeMap String RuleSet}
    (h : ∀ entry ∈ overrides.toList, entry.2.IsFaithful) :
    readOverrides? (.object (overrides.toList.map fun (name, set) => (name, set.toJson))) =
      some overrides := by
  have hentries : (overrides.toList.map fun (name, set) => (name, set.toJson)).mapM
      (fun member => (RuleSet.ofJson? member.2).map (member.1, ·)) = some overrides.toList :=
    mapM_map fun entry hentry => by rw [RuleSet.ofJson?_toJson (h entry hentry), Option.map_some]
  rw [readOverrides?, hentries, Option.map_some, ofList_toList]

/-- A catalog is read back if records tell the operands of its rule sets. -/
theorem ofJson?_toJson {catalog : Catalog} (h : catalog.IsFaithful) :
    ofJson? catalog.toJson = some catalog := by
  rw [toJson, ofJson?, members?_object (by simp)]
  refine bind_eq_some rfl (bind_eq_some (a := catalog.global) ?_
    (bind_eq_some (a := catalog.overrides) ?_ rfl))
  · exact (required?_of_lookup (by simp [List.lookup_cons])).trans (RuleSet.ofJson?_toJson h.1)
  · exact (withDefault?_of_lookup (by simp)).trans (readOverrides?_object h.2)

end Catalog

end Curation
