import Mathlib.Data.List.Basic
import Curation.Proofs.Json.Order
import Curation.Proofs.Record.Reading
import Curation.Store.Documents

/-!
# Ways to combine predicates in documents

Documents of filter sets, rule sets and catalogs tell at certain places how predicates are combined.
A value there that names no combination is reported before any other defect of the document, and of
several such values the first one: that of the global rule set, and then those of the overrides in
ascending order of the names of their collections. What is decoded has the combinations that the
places name.

* `Combination.IsSpelledBy`: the accepted spellings.
* `LogicPlace`: the places, which of them a namespace has, and their order.
* `LogicPlace.IsBad`: a place tells something that names no combination.
* `decodeDocument_eq_invalidLogic_iff`: what is reported of a document.
* `decodeDocument_reports_logic`: what a document of a namespace is decoded to.
-/

namespace Curation

namespace Combination

/-- The names under which a combination is known. -/
def spellings : Combination → List String
  | and => ["AND", "and", "all"]
  | or => ["OR", "or", "any"]

/-- The text is a spelling of the combination, between blanks. -/
def IsSpelledBy (logic : Combination) (raw : String) : Prop :=
  String.ofList (Text.trim raw.toList) ∈ logic.spellings

/-- A text names the combination that it spells, and no other. -/
theorem ofText?_eq_some_iff {raw : String} {logic : Combination} :
    ofText? raw = some logic ↔ logic.IsSpelledBy raw := by
  have hdisjoint : ∀ text ∈ and.spellings, text ∉ or.spellings := by decide
  unfold ofText? IsSpelledBy
  generalize String.ofList (Text.trim raw.toList) = text
  specialize hdisjoint text
  cases logic <;> simp only [spellings] at * <;> grind

end Combination

/-- The value names no combination, of which `text` tells: a string without the blanks around it,
any other value as it is written. -/
def Json.IsRefusedAs (value : Json) (text : String) : Prop :=
  match value with
  | .string raw =>
    (∀ logic : Combination, ¬ logic.IsSpelledBy raw) ∧ text = String.ofList (Text.trim raw.toList)
  | value => text = value.compact

/-- A place in a document at which can stand how predicates are combined. -/
inductive LogicPlace where
  /-- The document itself. -/
  | whole
  /-- The rule set of a catalog that is not for one collection only. -/
  | global
  /-- The rule set of a catalog for a collection. -/
  | override (collection : String)

namespace LogicPlace

/-- The documents of the namespace have such places. -/
def IsOf (space : String) : LogicPlace → Prop
  | whole => space = filterSetSpace ∨ space = ruleSetSpace
  | global | override _ => space = catalogSpace

/-- What stands at the place, if anything does. -/
def part? (document : Json) : LogicPlace → Option Json
  | whole => some document
  | global => document.get? "global"
  | override collection => (document.get? "collectionOverrides").bind (·.get? collection)

/-- The one place is looked at before the other: the global rule set before those of collections,
and these in ascending order of the names. -/
def Before : LogicPlace → LogicPlace → Prop
  | global, override _ => True
  | override collection, override other => collection < other
  | _, _ => False

/-- At the place stands an object whose member `logic` names no combination, of which `text`
tells. -/
def IsBad (space : String) (document : Json) (place : LogicPlace) (text : String) : Prop :=
  place.IsOf space ∧ ∃ members value, place.part? document = some (.object members) ∧
    members.lookup "logic" = some value ∧ value.IsRefusedAs text

/-- The place is bad, and none that is looked at before it is. -/
def IsFirstBad (space : String) (document : Json) (place : LogicPlace) (text : String) : Prop :=
  place.IsBad space document text ∧
    ∀ other : LogicPlace, other.Before place → ∀ told, ¬ other.IsBad space document told

/-- No two places are looked at before each other. -/
theorem Before.asymm {place other : LogicPlace} (h : place.Before other) :
    ¬ other.Before place := by
  cases place <;> cases other <;> simp only [Before, not_false_eq_true] at *
  exact fun h' => String.lt_irrefl _ (String.lt_trans h h')

/-- Outside catalogs, only the document itself is such a place. -/
theorem eq_whole {space : String} {place : LogicPlace} (hspace : place.IsOf space)
    (hne : space ≠ catalogSpace) : place = whole := by
  cases place with
  | whole => rfl
  | global | override => exact absurd hspace hne

/-- The members of the overrides of a catalog. -/
def overrideMembers (document : Json) : List (String × Json) :=
  match document.get? "collectionOverrides" with
  | some (.object members) => members
  | _ => []

/-- The places of a document of the namespace, in order. -/
def all (space : String) (document : Json) : List LogicPlace :=
  if space = filterSetSpace ∨ space = ruleSetSpace then [whole]
  else if space = catalogSpace then
    global :: (overrideMembers document).map fun member => override member.1
  else []

section Places

variable {space : String} {document : Json}

/-- At the place of an override stands the member of its collection. -/
theorem part?_override (document : Json) (collection : String) :
    (override collection).part? document = (overrideMembers document).lookup collection := by
  show (document.get? "collectionOverrides").bind (·.get? collection) = _
  unfold overrideMembers
  cases document.get? "collectionOverrides" with
  | none => rfl
  | some overrides => cases overrides <;> rfl

/-- The overrides of a sorted document are in ascending order of their collections. -/
theorem pairwise_overrideMembers (hsorted : document.sorted = document) :
    (overrideMembers document).Pairwise (·.1 < ·.1) := by
  unfold overrideMembers
  split
  · next h => exact (Json.sorted_object_iff.mp (Json.sorted_of_get? hsorted h)).1
  · exact .nil

/-- The places stand in the order in which they are looked at. -/
theorem pairwise_all (space : String) (hsorted : document.sorted = document) :
    (all space document).Pairwise Before := by
  unfold all
  split
  · exact List.pairwise_singleton _ _
  · split
    -- the global rule set is looked at first, and the overrides in ascending order
    · refine List.pairwise_cons.mpr ⟨fun place hplace => ?_, ?_⟩
      · obtain ⟨member, -, rfl⟩ := List.mem_map.mp hplace
        trivial
      · exact List.pairwise_map.mpr (pairwise_overrideMembers hsorted)
    · exact .nil

/-- The places of a document are places of its namespace. -/
theorem isOf_of_mem_all {place : LogicPlace} (h : place ∈ all space document) :
    place.IsOf space := by
  unfold all at h
  split at h
  · next hset =>
    obtain rfl := List.mem_singleton.mp h
    exact hset
  · split at h
    · next hcatalog =>
      rcases List.mem_cons.mp h with rfl | h
      · exact hcatalog
      · obtain ⟨member, -, rfl⟩ := List.mem_map.mp h
        exact hcatalog
    · cases h

/-- Where something stands, there is a place of the document. -/
theorem mem_all_of_part? (hsorted : document.sorted = document) {place : LogicPlace}
    (hspace : place.IsOf space) {part : Json} (hpart : place.part? document = some part) :
    place ∈ all space document := by
  have hcatalogs : catalogSpace ≠ filterSetSpace ∧ catalogSpace ≠ ruleSetSpace := by decide
  unfold all
  cases place with
  | whole =>
    have hset : space = filterSetSpace ∨ space = ruleSetSpace := hspace
    rw [if_pos hset]
    exact List.mem_singleton_self _
  | global =>
    obtain rfl : space = catalogSpace := hspace
    rw [if_neg (by simp [hcatalogs]), if_pos rfl]
    exact List.mem_cons_self
  | override collection =>
    obtain rfl : space = catalogSpace := hspace
    -- in ascending order, what the look-up finds is the only member of that name
    rw [part?_override, Json.lookup_eq_some_iff (pairwise_overrideMembers hsorted)] at hpart
    rw [if_neg (by simp [hcatalogs]), if_pos rfl]
    exact List.mem_cons_of_mem _ (List.mem_map.mpr ⟨_, hpart, rfl⟩)

/-- What is looked at is what stands at the places. -/
theorem logicHolders_eq (space : String) (hsorted : document.sorted = document) :
    logicHolders space document = (all space document).filterMap (·.part? document) := by
  have hmembers := pairwise_overrideMembers hsorted
  have hvalues : memberValues (document.get? "collectionOverrides") =
      (overrideMembers document).map (·.2) := by
    unfold memberValues overrideMembers
    split <;> simp_all
  -- at the place of each override stands the value of its member
  have hparts : ((overrideMembers document).map fun member => override member.1).filterMap
      (·.part? document) = (overrideMembers document).map (·.2) := by
    rw [List.filterMap_map, List.filterMap_eq_map_iff_forall_eq_some]
    intro member hmember
    exact (part?_override document member.1).trans
      ((Json.lookup_eq_some_iff hmembers).mpr hmember)
  unfold logicHolders all
  split
  · rfl
  · split
    · rw [hvalues]
      have hglobal : global.part? document = document.get? "global" := rfl
      rw [List.filterMap_cons, hparts, hglobal]
      cases document.get? "global" <;> rfl
    · rfl

end Places

end LogicPlace

/-! ## The first failure -/

/-- What goes through a list and stops at the first element that fails, fails for an element before
which none does. -/
theorem eq_error_iff_exists_first {f : List α → Except ε β} {g : α → Except ε γ}
    (hnil : ∀ e, f [] ≠ .error e)
    (hcons : ∀ x xs e, f (x :: xs) = .error e ↔
      g x = .error e ∨ (∃ c, g x = .ok c) ∧ f xs = .error e) (xs : List α) (e : ε) :
    f xs = .error e ↔ ∃ before x after, xs = before ++ x :: after ∧
      (∀ other ∈ before, ∃ c, g other = .ok c) ∧ g x = .error e := by
  induction xs with
  | nil => simp [hnil]
  | cons x xs ih =>
    rw [hcons, ih]
    constructor
    -- the first element fails, or it does not and one behind it is the first to fail
    · rintro (hx | ⟨hx, before, last, after, rfl, hbefore, hlast⟩)
      · exact ⟨[], x, xs, rfl, nofun, hx⟩
      · exact ⟨x :: before, last, after, rfl, List.forall_mem_cons.mpr ⟨hx, hbefore⟩, hlast⟩
    · rintro ⟨before, last, after, heq, hbefore, hlast⟩
      rcases List.cons_eq_append_iff.mp heq with ⟨rfl, h⟩ | ⟨rest, rfl, rfl⟩
      · obtain ⟨rfl, -⟩ := List.cons.inj h
        exact .inl hlast
      · obtain ⟨hx, hrest⟩ := List.forall_mem_cons.mp hbefore
        exact .inr ⟨hx, rest, last, after, rfl, hrest, hlast⟩

/-- A value is refused if it names no combination, and its text is told. -/
theorem checkLogic_eq_error_iff {value : Json} {failure : Failure} :
    checkLogic value = .error failure ↔
      ∃ text, value.IsRefusedAs text ∧ failure = .invalidLogic text := by
  cases value with
  | string raw =>
    -- a text names no combination exactly if it spells none
    have hnone : Combination.ofText? raw = none ↔
        ∀ logic : Combination, ¬ logic.IsSpelledBy raw := by
      simp only [Option.eq_none_iff_forall_ne_some, ne_eq, Combination.ofText?_eq_some_iff]
    simp only [checkLogic, Combination.ofText, Json.IsRefusedAs, ← hnone]
    cases Combination.ofText? raw with
    | some logic => simp [Except.map]
    | none => simp [Except.map, eq_comm]
  | _ => simp [checkLogic, Json.IsRefusedAs, eq_comm]

/-- A holder is refused if it is an object whose member `logic` names no combination. -/
theorem checkHolder_eq_error_iff {holder : Json} {failure : Failure} :
    checkHolder holder = .error failure ↔ ∃ members value text, holder = .object members ∧
      members.lookup "logic" = some value ∧ value.IsRefusedAs text ∧
        failure = .invalidLogic text := by
  unfold checkHolder
  cases holder with
  | object members =>
    simp only [Json.get?, Json.object.injEq, exists_and_left, exists_eq_left']
    cases members.lookup "logic" with
    | some value => simp [checkLogic_eq_error_iff]
    | none => simp
  | _ => simp [Json.get?]

/-- Holders are not refused if none of them is. -/
theorem checkHolders_eq_ok_iff {holders : List Json} :
    checkHolders holders = .ok () ↔ ∀ holder ∈ holders, checkHolder holder = .ok () := by
  induction holders with
  | nil => simp [checkHolders]
  | cons holder holders ih =>
    rw [checkHolders, List.forall_mem_cons, ← ih]
    cases checkHolder holder <;> simp [bind, Except.bind]

namespace LogicPlace

/-- Refuses what stands at the place, if something that names no combination does. -/
def check (document : Json) (place : LogicPlace) : Except Failure Unit :=
  match place.part? document with
  | some holder => checkHolder holder
  | none => .ok ()

/-- What stands at a place is refused if it is an object whose member `logic` names no combination.
-/
theorem check_eq_error_iff {document : Json} {place : LogicPlace} {failure : Failure} :
    place.check document = .error failure ↔ ∃ members value text,
      place.part? document = some (.object members) ∧ members.lookup "logic" = some value ∧
        value.IsRefusedAs text ∧ failure = .invalidLogic text := by
  unfold check
  cases place.part? document with
  | some holder => simp [checkHolder_eq_error_iff]
  | none => simp

end LogicPlace

/-- What stands at the first place is looked at before what stands at the others. -/
theorem checkHolders_parts_cons (document : Json) (place : LogicPlace) (places : List LogicPlace) :
    checkHolders ((place :: places).filterMap (·.part? document)) =
      place.check document >>= fun _ => checkHolders (places.filterMap (·.part? document)) := by
  unfold LogicPlace.check
  cases hpart : place.part? document with
  | some holder => rw [List.filterMap_cons_some hpart, checkHolders]
  | none => rw [List.filterMap_cons_none hpart]; rfl

/-- What stands at places is not refused if it is refused at none of them. -/
theorem checkHolders_parts_eq_ok_iff {document : Json} {places : List LogicPlace} :
    checkHolders (places.filterMap (·.part? document)) = .ok () ↔
      ∀ place ∈ places, place.check document = .ok () := by
  rw [checkHolders_eq_ok_iff, List.forall_mem_filterMap]
  refine forall₂_congr fun place _ => ?_
  unfold LogicPlace.check
  cases place.part? document <;> simp

/-- What stands at places is refused if it is refused at one of them and at none before. -/
theorem checkHolders_parts_eq_error_iff {document : Json} {places : List LogicPlace}
    {failure : Failure} :
    checkHolders (places.filterMap (·.part? document)) = .error failure ↔
      ∃ before place after, places = before ++ place :: after ∧
        (∀ other ∈ before, other.check document = .ok ()) ∧
          place.check document = .error failure := by
  -- nothing behind a place that is refused is looked at
  have hcons : ∀ (place : LogicPlace) (places : List LogicPlace) (failure : Failure),
      checkHolders ((place :: places).filterMap (·.part? document)) = .error failure ↔
        place.check document = .error failure ∨ (∃ u, place.check document = .ok u) ∧
          checkHolders (places.filterMap (·.part? document)) = .error failure := by
    intro place places failure
    rw [checkHolders_parts_cons]
    cases place.check document <;> simp [bind, Except.bind]
  have hfirst := eq_error_iff_exists_first
    (f := fun places => checkHolders (places.filterMap (·.part? document))) nofun hcons
    places failure
  simpa [Unique.exists_iff] using hfirst

section Report

variable {space : String} {document : Json} {read? : Json → Option α}

open LogicPlace

/-- What stands at a bad place is refused. -/
theorem check_eq_error_of_isBad {place : LogicPlace} {text : String}
    (h : place.IsBad space document text) : place.check document = .error (.invalidLogic text) := by
  obtain ⟨-, members, value, hpart, hlogic, hrefused⟩ := h
  exact check_eq_error_iff.mpr ⟨members, value, text, hpart, hlogic, hrefused, rfl⟩

/-- A place of the document is bad if it is refused. -/
theorem exists_isBad_of_check {place : LogicPlace} {failure : Failure}
    (hmem : place ∈ all space document) (h : place.check document = .error failure) :
    ∃ text, failure = .invalidLogic text ∧ place.IsBad space document text := by
  obtain ⟨members, value, text, hpart, hlogic, hrefused, hfailure⟩ := check_eq_error_iff.mp h
  exact ⟨text, hfailure, isOf_of_mem_all hmem, members, value, hpart, hlogic, hrefused⟩

/-- A bad place is one of the places of the document. -/
theorem mem_all_of_isBad (hsorted : document.sorted = document) {place : LogicPlace} {text : String}
    (h : place.IsBad space document text) : place ∈ all space document := by
  obtain ⟨hspace, members, value, hpart, -⟩ := h
  exact mem_all_of_part? hsorted hspace hpart

/-- A document is refused for the first of its places that is bad. -/
theorem checkHolders_logicHolders_eq_error_iff (hsorted : document.sorted = document)
    {failure : Failure} :
    checkHolders (logicHolders space document) = .error failure ↔
      ∃ (place : LogicPlace) (text : String), failure = .invalidLogic text ∧
        place.IsFirstBad space document text := by
  have hpairwise := pairwise_all space hsorted
  rw [logicHolders_eq space hsorted, checkHolders_parts_eq_error_iff]
  constructor
  · rintro ⟨before, place, after, hall, hbefore, hplace⟩
    have hmem : place ∈ all space document := by
      rw [hall]
      exact List.mem_append_right before List.mem_cons_self
    obtain ⟨text, hfailure, hbad⟩ := exists_isBad_of_check hmem hplace
    refine ⟨place, text, hfailure, hbad, fun other hother told htold => ?_⟩
    -- a place that is looked at earlier stands before this one, and there nothing is refused
    have hmem := mem_all_of_isBad hsorted htold
    rw [hall, List.pairwise_append, List.pairwise_cons] at hpairwise
    rw [hall, List.mem_append, List.mem_cons] at hmem
    rcases hmem with hmem | rfl | hmem
    · have hok := hbefore other hmem
      rw [check_eq_error_of_isBad htold] at hok
      cases hok
    · exact hother.asymm hother
    · exact (hpairwise.2.1.1 other hmem).asymm hother
  · rintro ⟨place, text, rfl, hbad, hfirst⟩
    obtain ⟨before, after, hall⟩ := List.append_of_mem (mem_all_of_isBad hsorted hbad)
    refine ⟨before, place, after, hall, fun other hother => ?_, check_eq_error_of_isBad hbad⟩
    have hmem : other ∈ all space document := by
      rw [hall]
      exact List.mem_append_left _ hother
    rw [hall, List.pairwise_append] at hpairwise
    have hlt := hpairwise.2.2 other hother place List.mem_cons_self
    cases hcheck : other.check document with
    | ok => rfl
    | error failure =>
      obtain ⟨told, -, htold⟩ := exists_isBad_of_check hmem hcheck
      exact absurd htold (hfirst other hlt told)

/-- A document is not refused if none of its places is bad. -/
theorem checkHolders_logicHolders_eq_ok_iff (hsorted : document.sorted = document) :
    checkHolders (logicHolders space document) = .ok () ↔
      ∀ (place : LogicPlace) (text : String), ¬ place.IsBad space document text := by
  rw [logicHolders_eq space hsorted, checkHolders_parts_eq_ok_iff]
  constructor
  · intro h place text hbad
    have hok := h place (mem_all_of_isBad hsorted hbad)
    rw [check_eq_error_of_isBad hbad] at hok
    cases hok
  · intro h place hmem
    -- a place that is refused would be a bad one
    cases hcheck : place.check document with
    | ok => rfl
    | error failure =>
      obtain ⟨text, -, hbad⟩ := exists_isBad_of_check hmem hcheck
      exact absurd hbad (h place text)

/-- A document that is not refused is a record or is not. -/
theorem decodeDocument_of_ok (h : checkHolders (logicHolders space document) = .ok ()) :
    decodeDocument read? space document =
      match read? document with
      | some record => .ok record
      | none => .error .undecodable := by
  rw [decodeDocument, h]
  rfl

/-- A document with a place that is refused is not read any further. -/
theorem decodeDocument_of_error {failure : Failure}
    (h : checkHolders (logicHolders space document) = .error failure) :
    decodeDocument read? space document = .error failure := by
  rw [decodeDocument, h]
  rfl

/-- What names no combination is reported for the first place of the document at which it stands. -/
theorem decodeDocument_eq_invalidLogic_iff (hsorted : document.sorted = document) {text : String} :
    decodeDocument read? space document = .error (.invalidLogic text) ↔
      ∃ place : LogicPlace, place.IsFirstBad space document text := by
  cases hcheck : checkHolders (logicHolders space document) with
  | error failure =>
    obtain ⟨place, told, rfl, hfirst⟩ := (checkHolders_logicHolders_eq_error_iff hsorted).mp hcheck
    rw [decodeDocument_of_error hcheck]
    constructor
    · intro h
      cases h
      exact ⟨place, hfirst⟩
    · rintro ⟨other, hother⟩
      -- two places that are told first tell the same text
      have hother := (checkHolders_logicHolders_eq_error_iff hsorted).mpr ⟨other, text, rfl, hother⟩
      rw [Except.error.inj (hcheck.symm.trans hother)]
  | ok =>
    -- without a bad place, a document that is no record is told as undecodable
    have hgood := (checkHolders_logicHolders_eq_ok_iff hsorted).mp hcheck
    rw [decodeDocument_of_ok hcheck]
    constructor
    · intro h
      split at h <;> cases h
    · rintro ⟨place, hbad, -⟩
      exact absurd hbad (hgood place text)

/-- Something that names no combination is reported if it stands anywhere. -/
theorem exists_decodeDocument_eq_invalidLogic_iff (hsorted : document.sorted = document) :
    (∃ text, decodeDocument read? space document = .error (.invalidLogic text)) ↔
      ∃ (place : LogicPlace) (text : String), place.IsBad space document text := by
  constructor
  · rintro ⟨text, h⟩
    obtain ⟨place, hbad, -⟩ := (decodeDocument_eq_invalidLogic_iff hsorted).mp h
    exact ⟨place, text, hbad⟩
  · rintro ⟨place, text, hbad⟩
    -- the bad place makes the check fail, if not for itself then for one before it
    cases hcheck : checkHolders (logicHolders space document) with
    | ok => exact absurd hbad ((checkHolders_logicHolders_eq_ok_iff hsorted).mp hcheck place text)
    | error failure =>
      obtain ⟨_, told, rfl, -⟩ := (checkHolders_logicHolders_eq_error_iff hsorted).mp hcheck
      exact ⟨told, decodeDocument_of_error hcheck⟩

/-- A document that is decoded is read as the record. -/
theorem eq_some_of_decodeDocument {record : α}
    (h : decodeDocument read? space document = .ok record) : read? document = some record := by
  cases hcheck : checkHolders (logicHolders space document) with
  | error failure =>
    rw [decodeDocument_of_error hcheck] at h
    cases h
  | ok =>
    -- only a document that passes the check is read
    rw [decodeDocument_of_ok hcheck] at h
    split at h
    · next hread => rw [hread, Except.ok.inj h]
    · cases h

/-- A document without bad places is a record or is not. -/
theorem decodeDocument_eq_undecodable_or_ok (hsorted : document.sorted = document)
    (hgood : ∀ (place : LogicPlace) (text : String), ¬ place.IsBad space document text) :
    decodeDocument read? space document = .error .undecodable ∨
      ∃ record, decodeDocument read? space document = .ok record := by
  rw [decodeDocument_of_ok ((checkHolders_logicHolders_eq_ok_iff hsorted).mpr hgood)]
  cases read? document with
  | none => exact .inl rfl
  | some record => exact .inr ⟨record, rfl⟩

end Report

/-! ## The combinations of records -/

section Combinations

open Record

/-- The members of an object are taken as they are. -/
theorem eq_of_members?_object {names : List String} {members fields : Members}
    (h : members? names (.object members) = some fields) : members = fields := by
  change namedMembers? names (.object members) = some fields at h
  rw [namedMembers?] at h
  split at h
  · exact Option.some.inj h
  · cases h

/-- The member `logic` spells the combination. -/
def SpellsLogic (members : Members) (logic : Combination) : Prop :=
  ∃ raw, members.lookup "logic" = some (.string raw) ∧ logic.IsSpelledBy raw

/-- A combination that is read from the member `logic` is spelled there. -/
theorem spellsLogic_of_required? {members : Members} {logic : Combination}
    (h : required? members "logic" Combination.ofJson? = some logic) :
    SpellsLogic members logic := by
  obtain ⟨value, hvalue, hread⟩ := Option.bind_eq_some_iff.mp h
  obtain ⟨raw, hraw, htext⟩ := Option.bind_eq_some_iff.mp hread
  cases value with
  | string text =>
    cases hraw
    exact ⟨_, hvalue, Combination.ofText?_eq_some_iff.mp htext⟩
  | _ => cases hraw

/-- A filter set has the combination that its record spells. -/
theorem FilterSet.spellsLogic_of_ofJson? {members : Members} {set : FilterSet}
    (h : ofJson? (.object members) = some set) : SpellsLogic members set.logic := by
  simp only [ofJson?, Option.bind_eq_bind, Option.bind_eq_some_iff] at h
  obtain ⟨fields, hfields, conditions, -, logic, hlogic, hset⟩ := h
  obtain rfl := eq_of_members?_object hfields
  obtain rfl := Option.some.inj hset
  exact spellsLogic_of_required? hlogic

theorem RuleSet.spellsLogic_of_ofJson? {members : Members} {set : RuleSet}
    (h : ofJson? (.object members) = some set) : SpellsLogic members set.logic := by
  simp only [ofJson?, Option.bind_eq_bind, Option.bind_eq_some_iff] at h
  obtain ⟨fields, hfields, _, -, _, -, _, -, logic, hlogic, _, -, _, -, _, -, hset⟩ := h
  obtain rfl := eq_of_members?_object hfields
  obtain rfl := Option.some.inj hset
  exact spellsLogic_of_required? hlogic

/-- Members that are read one by one keep their names. -/
theorem entries_of_mapM {read? : Json → Option α} {members : Members} {entries : List (String × α)}
    (h : members.mapM (fun member => (read? member.2).map (member.1, ·)) = some entries) :
    entries.map (·.1) = members.map (·.1) ∧
      ∀ member ∈ members, ∃ a, read? member.2 = some a ∧ (member.1, a) ∈ entries := by
  induction members generalizing entries with
  | nil =>
    obtain rfl : [] = entries := Option.some.inj h
    exact ⟨rfl, nofun⟩
  | cons member members ih =>
    simp only [List.mapM_cons, Option.bind_eq_bind, Option.bind_eq_some_iff,
      Option.map_eq_some_iff] at h
    -- the first member is read, and so are the others
    obtain ⟨_, ⟨a, ha, rfl⟩, rest, hrest, hentries⟩ := h
    obtain rfl : (member.1, a) :: rest = entries := Option.some.inj hentries
    obtain ⟨hnames, hmembers⟩ := ih hrest
    refine ⟨by rw [List.map_cons, List.map_cons, hnames],
      List.forall_mem_cons.mpr ⟨⟨a, ha, List.mem_cons_self⟩, fun other hother => ?_⟩⟩
    obtain ⟨b, hb, hmem⟩ := hmembers other hother
    exact ⟨b, hb, List.mem_cons_of_mem _ hmem⟩

/-- The override for a collection is read from its member. -/
theorem getElem?_readOverrides? {members : Members} {overrides : Std.ExtTreeMap String RuleSet}
    (hsorted : members.Pairwise (·.1 < ·.1)) (h : readOverrides? (.object members) = some overrides)
    {collection : String} {value : Json} (hmem : (collection, value) ∈ members) :
    ∃ set, RuleSet.ofJson? value = some set ∧ overrides[collection]? = some set := by
  obtain ⟨entries, hentries, rfl⟩ := Option.map_eq_some_iff.mp h
  obtain ⟨hnames, hmembers⟩ := entries_of_mapM hentries
  obtain ⟨set, hset, hentry⟩ := hmembers _ hmem
  -- the names ascend, so that no later entry stands for the same collection
  have hlt : (entries.map (·.1)).Pairwise (· < ·) := hnames ▸ List.pairwise_map.mpr hsorted
  have hdistinct : entries.Pairwise fun a b => ¬ compare a.1 b.1 = .eq :=
    (List.pairwise_map.mp hlt).imp fun {a b} hlt heq => by
      rw [Std.LawfulEqOrd.compare_eq_iff_eq.mp heq] at hlt
      exact String.lt_irrefl _ hlt
  exact ⟨set, hset,
    Std.ExtTreeMap.getElem?_ofList_of_mem Std.ReflCmp.compare_self hdistinct hentry⟩

/-- The combination of a catalog at a place. -/
def Catalog.logic? (catalog : Catalog) : LogicPlace → Option Combination
  | .whole => none
  | .global => some catalog.global.logic
  | .override collection => catalog.overrides[collection]?.map (·.logic)

/-- The rule sets of a catalog have the combinations that their members spell. -/
theorem Catalog.spellsLogic_of_ofJson? {document : Json} {catalog : Catalog}
    (hsorted : document.sorted = document) (h : ofJson? document = some catalog)
    {place : LogicPlace} (hspace : place.IsOf catalogSpace) {part : Members}
    (hpart : place.part? document = some (.object part)) :
    ∃ logic, SpellsLogic part logic ∧ catalog.logic? place = some logic := by
  simp only [ofJson?, Option.bind_eq_bind, Option.bind_eq_some_iff] at h
  obtain ⟨fields, hfields, global, hglobal, overrides, hoverrides, hcatalog⟩ := h
  obtain rfl := Option.some.inj hcatalog
  -- a catalog can be told as an array of its fields as well, in which there is no such place
  cases place with
  | whole => exact absurd hspace (by unfold LogicPlace.IsOf; decide)
  | global =>
    obtain ⟨members, rfl, hlookup⟩ := Json.exists_lookup_of_get? hpart
    obtain rfl := eq_of_members?_object hfields
    rw [required?, hlookup] at hglobal
    exact ⟨_, RuleSet.spellsLogic_of_ofJson? hglobal, rfl⟩
  | override collection =>
    obtain ⟨value, hvalue, hmember⟩ := Option.bind_eq_some_iff.mp hpart
    obtain ⟨entries, rfl, hentry⟩ := Json.exists_lookup_of_get? hmember
    have hlt := (Json.sorted_object_iff.mp (Json.sorted_of_get? hsorted hvalue)).1
    obtain ⟨members, rfl, hlookup⟩ := Json.exists_lookup_of_get? hvalue
    obtain rfl := eq_of_members?_object hfields
    rw [withDefault?, hlookup] at hoverrides
    obtain ⟨set, hset, hget⟩ := getElem?_readOverrides? hlt hoverrides
      ((Json.lookup_eq_some_iff hlt).mp hentry)
    exact ⟨set.logic, RuleSet.spellsLogic_of_ofJson? hset, by rw [logic?, hget]; rfl⟩

end Combinations

/-- How the documents of a namespace are read, and the combination of a record at each place. -/
inductive RecordsOf : {α : Type} → String → (Json → Option α) →
    (α → LogicPlace → Option Combination) → Prop where
  | filterSets : RecordsOf filterSetSpace FilterSet.ofJson? fun set _ => some set.logic
  | ruleSets : RecordsOf ruleSetSpace RuleSet.ofJson? fun set _ => some set.logic
  | catalogs : RecordsOf catalogSpace Catalog.ofJson? Catalog.logic?
  /-- The records of any other namespace combine no predicates. -/
  | other {α : Type} {space : String} {read? : Json → Option α}
      (h : space ∉ [filterSetSpace, ruleSetSpace, catalogSpace]) :
      RecordsOf space read? fun _ _ => none

section

variable {α : Type} {space : String} {read? : Json → Option α}
  {logic? : α → LogicPlace → Option Combination} {document : Json}

/-- A record has the combinations that its document spells. -/
theorem RecordsOf.spellsLogic (h : RecordsOf space read? logic?)
    (hsorted : document.sorted = document) {record : α} (hread : read? document = some record)
    {place : LogicPlace} (hspace : place.IsOf space) {part : Record.Members}
    (hpart : place.part? document = some (.object part)) :
    ∃ logic, SpellsLogic part logic ∧ logic? record place = some logic := by
  cases h with
  | filterSets =>
    obtain rfl := LogicPlace.eq_whole hspace (by decide)
    cases hpart
    exact ⟨_, FilterSet.spellsLogic_of_ofJson? hread, rfl⟩
  | ruleSets =>
    obtain rfl := LogicPlace.eq_whole hspace (by decide)
    cases hpart
    exact ⟨_, RuleSet.spellsLogic_of_ofJson? hread, rfl⟩
  | catalogs => exact Catalog.spellsLogic_of_ofJson? hsorted hread hspace hpart
  | other hother =>
    -- such a namespace has no places
    simp only [List.mem_cons, List.not_mem_nil, or_false, not_or] at hother
    obtain rfl := LogicPlace.eq_whole hspace hother.2.2
    exact absurd hspace (not_or.mpr ⟨hother.1, hother.2.1⟩)

/-- Of a document of a namespace, in sorted form as all documents are, what names no combination is
reported if there is any, for the first place at which it stands and whatever else is wrong.
Otherwise the document is a record, which has the combinations that are spelled at the places, or is
none. -/
theorem decodeDocument_reports_logic (hread : RecordsOf space read? logic?)
    (hsorted : document.sorted = document) :
    ((∃ text, decodeDocument read? space document = .error (.invalidLogic text)) ↔
      ∃ (place : LogicPlace) (text : String), place.IsBad space document text) ∧
    (∀ text, decodeDocument read? space document = .error (.invalidLogic text) ↔
      ∃ place : LogicPlace, place.IsFirstBad space document text) ∧
    ((∀ (place : LogicPlace) (text : String), ¬ place.IsBad space document text) →
      decodeDocument read? space document = .error .undecodable ∨
        ∃ record, decodeDocument read? space document = .ok record) ∧
    ∀ record, decodeDocument read? space document = .ok record →
      ∀ (place : LogicPlace) (part : Record.Members), place.IsOf space →
        place.part? document = some (.object part) →
          ∃ logic, SpellsLogic part logic ∧ logic? record place = some logic := by
  refine ⟨exists_decodeDocument_eq_invalidLogic_iff hsorted,
    fun text => decodeDocument_eq_invalidLogic_iff hsorted,
    decodeDocument_eq_undecodable_or_ok hsorted, ?_⟩
  intro record hrecord place part hspace hpart
  exact hread.spellsLogic hsorted (eq_some_of_decodeDocument hrecord) hspace hpart

end

/-- A catalog that lacks members and has others of the wrong kind, and of whose overrides two name
no combination. -/
def brokenCatalog : Json :=
  .object
    [("collectionOverrides",
        .object
          [("Daily", .object [("logic", .string " xor "), ("rules", .bool true)]),
            ("News", .object [("logic", .integer 7)])]),
      ("global", .object [("logic", .string "all "), ("name", .null)])]

/-- Of two overrides that name no combination, the first in ascending order is told; the global rule
set names one, with a blank behind it. -/
theorem decodeDocument_reports_logic_brokenCatalog :
    brokenCatalog.sorted = brokenCatalog ∧
      decodeDocument Catalog.ofJson? catalogSpace brokenCatalog = .error (.invalidLogic "xor") ∧
      ∃ place : LogicPlace, place.IsFirstBad catalogSpace brokenCatalog "xor" := by
  have hsorted : brokenCatalog.sorted = brokenCatalog := rfl
  have hdecode : decodeDocument Catalog.ofJson? catalogSpace brokenCatalog =
      .error (.invalidLogic "xor") := rfl
  exact ⟨hsorted, hdecode, ((decodeDocument_reports_logic .catalogs hsorted).2.1 "xor").mp hdecode⟩

end Curation
