import Curation.SortOrder

/-!
# Comparisons

Comparisons are put together: from attributes, one after the other where the first finds things
equal, in either direction. What orders things by its parts orders them as a whole.

* `transCmp_attribute`, `transCmp_then`, `transCmp_apply`: ways to put comparisons together.
* `Text.compareText_eq_lt`, `Text.compareText_eq_eq`: the order of texts.
* `SortOrder.compare` orders items, by every attribute and in both directions.
-/

namespace Curation

/-- A comparison by one attribute orders what has it. -/
theorem transCmp_attribute {cmp : β → β → Ordering} (h : Std.TransCmp cmp) (f : α → β) :
    Std.TransCmp fun a b => cmp (f a) (f b) where
  eq_swap := h.eq_swap
  isLE_trans := h.isLE_trans

/-- A comparison that another one follows where it finds things equal orders them. -/
theorem transCmp_then {cmp other : α → α → Ordering} (h : Std.TransCmp cmp)
    (hother : Std.TransCmp other) : Std.TransCmp fun a b => (cmp a b).then (other a b) :=
  inferInstanceAs (Std.TransCmp (compareLex cmp other))

/-- A comparison orders things in both directions. -/
theorem transCmp_apply {cmp : α → α → Ordering} (h : Std.TransCmp cmp)
    (direction : SortDirection) : Std.TransCmp fun a b => direction.apply (cmp a b) := by
  cases direction with
  | ascending => exact h
  | descending =>
    -- a comparison answers the other way round if its arguments are swapped
    have hswap : (fun a b => (cmp a b).swap) = fun a b => cmp b a := by
      funext a b
      exact h.eq_swap.symm
    exact hswap ▸ h.opposite

namespace Text

instance : Std.TransCmp compareText :=
  transCmp_then (transCmp_attribute inferInstance foldString) inferInstance

/-- Strings are compared by their order. -/
theorem compare_eq_lt {a b : String} : compare a b = .lt ↔ a < b := compareOfLessAndEq_eq_lt

/-- A text precedes another one by its folded form, or else as it is. -/
def Precedes (a b : String) : Prop :=
  foldString a < foldString b ∨ foldString a = foldString b ∧ a < b

/-- A text comes first if its folded form does, or if it does itself where the folded forms are one.
-/
theorem compareText_eq_lt {a b : String} : compareText a b = .lt ↔ Precedes a b := by
  rw [compareText, Ordering.then_eq_lt, Std.LawfulEqOrd.compare_eq_iff_eq, compare_eq_lt,
    compare_eq_lt, Precedes]

/-- Only equal texts compare as equal. -/
theorem compareText_eq_eq {a b : String} : compareText a b = .eq ↔ a = b :=
  ⟨eq_of_compareText, fun h => h ▸ Std.ReflCmp.compare_self⟩

end Text

namespace SortOrder

/-- Values that items may lack are ordered, with none of them last in both directions. -/
theorem transCmp_compareOptional [Ord α] [Std.TransOrd α] (direction : SortDirection) :
    Std.TransCmp (compareOptional (α := α) direction) where
  eq_swap {a b} := by
    cases a <;> cases b
    case some.some => exact (transCmp_apply inferInstance direction).eq_swap
    all_goals rfl
  isLE_trans {a b c} hab hbc := by
    cases a <;> cases b <;> cases c
    case some.some.some => exact (transCmp_apply inferInstance direction).isLE_trans hab hbc
    -- a value that is there is not after one that is lacking, and before no other
    all_goals simp [compareOptional] at hab hbc ⊢

/-- The comparison of items by their key is transitive. -/
theorem transCmp_compareKey (order : SortOrder) : Std.TransCmp order.compareKey := by
  obtain ⟨key, direction⟩ := order
  cases key with
  | publishDate => exact transCmp_attribute (transCmp_compareOptional direction) Item.publishDate
  -- what every item has is compared in the direction of the order
  | dateAdded =>
    exact transCmp_apply (transCmp_attribute inferInstance Item.dateAdded) direction
  | title => exact transCmp_apply (transCmp_attribute inferInstance Item.title) direction
  | collectionName =>
    exact transCmp_apply (transCmp_attribute inferInstance Item.collectionName) direction
  | duration => exact transCmp_attribute (transCmp_compareOptional direction) Item.durationSecs
  | rating => exact transCmp_attribute (transCmp_compareOptional direction) Item.rating

/-- Items are ordered by the attribute, and by their ids where they agree in it. -/
instance (order : SortOrder) : Std.TransCmp order.compare :=
  transCmp_then order.transCmp_compareKey (transCmp_attribute inferInstance Item.id)

end SortOrder

end Curation
