import Curation.Proofs.Sort.Comparison
import Curation.Search

/-!
# The order of search results

Results are compared by several attributes, each of which decides where those before it agree. The
comparison orders all results, and those that it finds equal agree in every attribute.

* `SearchResult.RanksBefore`, `SearchResult.Ties`: the order, told attribute by attribute.
* `compareResults_eq_lt`, `compareResults_eq_eq`: the comparison decides it.
-/

namespace Curation

/-- An instant is more recent than an earlier one, and than none. -/
def IsMoreRecent : Option Instant → Option Instant → Prop
  | some a, some b => b < a
  | some _, none => True
  | none, _ => False

/-- The order of dates is the order of optional instants, turned around. -/
theorem compareRecency_eq (a b : Option Instant) : compareRecency a b = compare b a := by
  cases a <;> cases b <;> rfl

instance : Std.TransCmp compareRecency := by
  have h : compareRecency = fun a b => compare b a :=
    funext fun a => funext fun b => compareRecency_eq a b
  exact h ▸ Std.TransCmp.opposite

/-- Only the same instants tie. -/
theorem compareRecency_eq_eq {a b : Option Instant} : compareRecency a b = .eq ↔ a = b := by
  rw [compareRecency_eq, Std.LawfulEqOrd.compare_eq_iff_eq, eq_comm]

/-- The more recent instant comes first. -/
theorem compareRecency_eq_lt {a b : Option Instant} :
    compareRecency a b = .lt ↔ IsMoreRecent a b := by
  cases a <;> cases b <;> simp [compareRecency, IsMoreRecent, Instant.compare_eq_lt]

namespace SearchResult

/-- A result ranks before another one by a greater score, else by a more recent date, else by its
title, else by its id. -/
def RanksBefore (a b : SearchResult) : Prop :=
  b.found.score.totalOrder a.found.score = .lt ∨
    b.found.score = a.found.score ∧
      (IsMoreRecent a.item.publishDate b.item.publishDate ∨
        a.item.publishDate = b.item.publishDate ∧
          (Text.Precedes a.item.title b.item.title ∨
            a.item.title = b.item.title ∧ a.item.id < b.item.id))

/-- Two results agree in all that they are ranked by. -/
def Ties (a b : SearchResult) : Prop :=
  b.found.score = a.found.score ∧ a.item.publishDate = b.item.publishDate ∧
    a.item.title = b.item.title ∧ a.item.id = b.item.id

instance (a b : SearchResult) : Decidable (a.Ties b) := inferInstanceAs (Decidable (_ ∧ _))

end SearchResult

open SearchResult

variable {a b : SearchResult}

/-- A result comes first in the comparison if it ranks before the other. -/
theorem compareResults_eq_lt : compareResults a b = .lt ↔ a.RanksBefore b := by
  simp only [compareResults, RanksBefore, Ordering.then_eq_lt, Double.totalOrder_eq_eq,
    compareRecency_eq_lt, compareRecency_eq_eq, Text.compareText_eq_lt, Text.compareText_eq_eq,
    Text.compare_eq_lt]

/-- Results are equal in the comparison if they tie. -/
theorem compareResults_eq_eq : compareResults a b = .eq ↔ a.Ties b := by
  simp only [compareResults, Ties, Ordering.then_eq_eq, Double.totalOrder_eq_eq,
    compareRecency_eq_eq, Text.compareText_eq_eq, Std.LawfulEqOrd.compare_eq_iff_eq]

/-- Results are ordered by one attribute after the other, each of which orders them. -/
instance : Std.TransCmp compareResults := by
  have hscore : Std.TransCmp fun a b : SearchResult => b.found.score.totalOrder a.found.score :=
    (transCmp_attribute inferInstance fun a : SearchResult => a.found.score.totalKey).opposite
  have hdate : Std.TransCmp fun a b : SearchResult =>
      compareRecency a.item.publishDate b.item.publishDate :=
    transCmp_attribute inferInstance fun a : SearchResult => a.item.publishDate
  have htitle : Std.TransCmp fun a b : SearchResult =>
      Text.compareText a.item.title b.item.title :=
    transCmp_attribute inferInstance fun a : SearchResult => a.item.title
  have hid : Std.TransCmp fun a b : SearchResult => compare a.item.id b.item.id :=
    transCmp_attribute inferInstance fun a : SearchResult => a.item.id
  exact transCmp_then hscore (transCmp_then hdate (transCmp_then htitle hid))

/-- Two results compare the other way round if they are exchanged. -/
theorem compareResults_swap (a b : SearchResult) :
    compareResults a b = (compareResults b a).swap := Std.OrientedCmp.eq_swap

end Curation
