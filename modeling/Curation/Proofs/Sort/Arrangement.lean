import Curation.Proofs.Sort.Comparison
import Curation.Proofs.Sort.Stable

/-!
# Arrangements of items

In which order items stand, told by what they have of the attribute that they are sorted by: those
that lack it come last, the others stand in the direction asked for, and items that agree stand in
ascending order of their ids. Items with different ids stand so in one order only, and sorting them
gives it.

* `SortKey.value?`: what an item has of an attribute.
* `SortOrder.Precedes`: an item has to stand before another one.
* `SortOrder.compare_eq_lt`, `SortOrder.compare_eq_eq`: the comparison decides it.
* `SortOrder.IsArranged`: items stand in the order.
* `SortOrder.sort_arranges`: sorting gives the only arrangement of items.
-/

namespace Curation

/-- A value to sort by. -/
inductive SortValue where
  | instant (t : Instant)
  | text (s : String)
  | number (n : Nat)
  deriving DecidableEq, Repr

/-- A value is less than another one of its kind: an earlier instant, a text that precedes, a
smaller number. -/
def SortValue.Less : SortValue → SortValue → Prop
  | instant s, instant t => s < t
  | text s, text t => Text.Precedes s t
  | number m, number n => m < n
  | _, _ => False

/-- What an item has of an attribute, if it does not lack it. -/
def SortKey.value? (item : Item) : SortKey → Option SortValue
  | publishDate => item.publishDate.map .instant
  | dateAdded => some (.instant item.dateAdded)
  | title => some (.text item.title)
  | collectionName => some (.text item.collectionName)
  | duration => item.durationSecs.map fun secs => .number secs.toNat
  | rating => item.rating.map fun stars => .number stars.toNat

/-- A value comes before another one in a direction. -/
def SortDirection.Leads : SortDirection → SortValue → SortValue → Prop
  | ascending, v, w => v.Less w
  | descending, v, w => w.Less v

/-- A comparison of things orders them by a value of theirs. -/
structure TellsValue (cmp : α → α → Ordering) (f : α → SortValue) : Prop where
  eq_lt_iff : ∀ a b, cmp a b = .lt ↔ (f a).Less (f b)
  eq_eq_iff : ∀ a b, cmp a b = .eq ↔ f a = f b

section Values

variable {cmp : α → α → Ordering} {f : α → SortValue}

/-- Instants are compared by when they are. -/
theorem tellsValue_instant : TellsValue compare SortValue.instant where
  eq_lt_iff _ _ := Instant.compare_eq_lt
  eq_eq_iff a b := by rw [Std.LawfulEqOrd.compare_eq_iff_eq, SortValue.instant.injEq]

/-- Texts are compared by their folded forms, and then by themselves. -/
theorem tellsValue_text : TellsValue Text.compareText SortValue.text where
  eq_lt_iff _ _ := Text.compareText_eq_lt
  eq_eq_iff a b := by rw [Text.compareText_eq_eq, SortValue.text.injEq]

/-- Durations are compared by their seconds. -/
theorem tellsValue_uint64 :
    TellsValue compare fun secs : UInt64 => SortValue.number secs.toNat where
  eq_lt_iff a b := compareOfLessAndEq_eq_lt.trans UInt64.lt_iff_toNat_lt
  eq_eq_iff a b := by
    rw [Std.LawfulEqOrd.compare_eq_iff_eq, SortValue.number.injEq, UInt64.toNat_inj]

theorem tellsValue_uint8 :
    TellsValue compare fun stars : UInt8 => SortValue.number stars.toNat where
  eq_lt_iff a b := compareOfLessAndEq_eq_lt.trans UInt8.lt_iff_toNat_lt
  eq_eq_iff a b := by
    rw [Std.LawfulEqOrd.compare_eq_iff_eq, SortValue.number.injEq, UInt8.toNat_inj]

/-- Things are ordered in a direction as their values are. -/
theorem apply_eq_lt_iff [Std.OrientedCmp cmp] (h : TellsValue cmp f) (direction : SortDirection)
    (a b : α) : direction.apply (cmp a b) = .lt ↔ direction.Leads (f a) (f b) := by
  cases direction with
  | ascending => exact h.eq_lt_iff a b
  | descending =>
    -- the comparison is turned around, and so are the two things
    rw [SortDirection.apply, ← Std.OrientedCmp.eq_swap]
    exact h.eq_lt_iff b a

/-- Things tie in either direction if their values are the same. -/
theorem apply_eq_eq_iff (h : TellsValue cmp f) (direction : SortDirection) (a b : α) :
    direction.apply (cmp a b) = .eq ↔ f a = f b := by
  rw [← h.eq_eq_iff]
  cases direction with
  | ascending => rfl
  | descending => exact Ordering.swap_eq_eq

end Values

namespace SortOrder

variable {order : SortOrder} {a b : Item}

/-- What an item has, or lacks, of the attribute comes before what another one has or lacks: any
value before none, and values in the direction. -/
def LeadsBy (direction : SortDirection) : Option SortValue → Option SortValue → Prop
  | some v, some w => direction.Leads v w
  | some _, none => True
  | none, _ => False

/-- An item has to stand before another one: by what it has of the attribute, or else by its id. -/
def Precedes (order : SortOrder) (a b : Item) : Prop :=
  LeadsBy order.direction (order.key.value? a) (order.key.value? b) ∨
    order.key.value? a = order.key.value? b ∧ a.id < b.id

/-- What has a value comes before what lacks one, and values come in the direction. -/
theorem compareOptional_eq_lt_iff [Ord α] [Std.OrientedOrd α] {f : α → SortValue}
    (h : TellsValue Ord.compare f) (direction : SortDirection) (a b : Option α) :
    compareOptional direction a b = .lt ↔ LeadsBy direction (a.map f) (b.map f) := by
  cases a <;> cases b
  case some.some a b => exact apply_eq_lt_iff h direction a b
  all_goals simp [compareOptional, LeadsBy]

/-- Things tie if they have the same value or both lack one. -/
theorem compareOptional_eq_eq_iff [Ord α] {f : α → SortValue} (h : TellsValue Ord.compare f)
    (direction : SortDirection) (a b : Option α) :
    compareOptional direction a b = .eq ↔ a.map f = b.map f := by
  cases a <;> cases b
  case some.some a b => exact (apply_eq_eq_iff h direction a b).trans Option.some_inj.symm
  all_goals simp [compareOptional]

/-- The attribute decides the order of items by their values. -/
theorem compareKey_eq_lt_iff (order : SortOrder) (a b : Item) :
    order.compareKey a b = .lt ↔
      LeadsBy order.direction (order.key.value? a) (order.key.value? b) := by
  obtain ⟨key, direction⟩ := order
  cases key with
  | publishDate => exact compareOptional_eq_lt_iff tellsValue_instant direction _ _
  | dateAdded => exact apply_eq_lt_iff tellsValue_instant direction _ _
  | title => exact apply_eq_lt_iff tellsValue_text direction _ _
  | collectionName => exact apply_eq_lt_iff tellsValue_text direction _ _
  | duration => exact compareOptional_eq_lt_iff tellsValue_uint64 direction _ _
  | rating => exact compareOptional_eq_lt_iff tellsValue_uint8 direction _ _

/-- Items tie by their key if they have the same value or both lack one. -/
theorem compareKey_eq_eq_iff (order : SortOrder) (a b : Item) :
    order.compareKey a b = .eq ↔ order.key.value? a = order.key.value? b := by
  obtain ⟨key, direction⟩ := order
  cases key with
  | publishDate => exact compareOptional_eq_eq_iff tellsValue_instant direction _ _
  -- what every item has is told as a value that is there
  | dateAdded => exact (apply_eq_eq_iff tellsValue_instant direction _ _).trans Option.some_inj.symm
  | title => exact (apply_eq_eq_iff tellsValue_text direction _ _).trans Option.some_inj.symm
  | collectionName =>
    exact (apply_eq_eq_iff tellsValue_text direction _ _).trans Option.some_inj.symm
  | duration => exact compareOptional_eq_eq_iff tellsValue_uint64 direction _ _
  | rating => exact compareOptional_eq_eq_iff tellsValue_uint8 direction _ _

/-- An item comes first in the comparison if it has to stand before the other. -/
theorem compare_eq_lt : order.compare a b = .lt ↔ order.Precedes a b := by
  rw [compare, Ordering.then_eq_lt, compareKey_eq_lt_iff, compareKey_eq_eq_iff,
    Text.compare_eq_lt, Precedes]

/-- Items are equal in the comparison only with the same value and the same id. -/
theorem compare_eq_eq :
    order.compare a b = .eq ↔ order.key.value? a = order.key.value? b ∧ a.id = b.id := by
  rw [compare, Ordering.then_eq_eq, compareKey_eq_eq_iff, Std.LawfulEqOrd.compare_eq_iff_eq]

/-- No two items have to stand before each other. -/
theorem Precedes.asymm (h : order.Precedes a b) : ¬ order.Precedes b a := by
  rw [← compare_eq_lt] at h ⊢
  have hswap : order.compare b a = (order.compare a b).swap := Std.OrientedCmp.eq_swap
  rw [hswap, h]
  nofun

/-- Items stand in the order asked for. -/
structure IsArranged (order : SortOrder) (items : List Item) : Prop where
  /-- Items that lack the attribute stand after all that have it. -/
  lacking_last : items.Pairwise fun a b =>
    order.key.value? a = none → order.key.value? b = none
  /-- Items that have the attribute stand in the direction. -/
  directed : items.Pairwise fun a b => ∀ v w, order.key.value? a = some v →
    order.key.value? b = some w → v = w ∨ order.direction.Leads v w
  /-- Items that agree in the attribute, or that both lack it, stand in the order of their ids. -/
  ties : items.Pairwise fun a b => order.key.value? a = order.key.value? b → a.id < b.id

/-- Items are arranged if each of them has to stand before those behind it. -/
theorem isArranged_iff {items : List Item} :
    order.IsArranged items ↔ items.Pairwise order.Precedes := by
  constructor
  · rintro ⟨hlacking, hdirected, hties⟩
    refine (hlacking.and (hdirected.and hties)).imp fun {a b} ⟨hlack, hdirect, htie⟩ => ?_
    rw [Precedes]
    cases ha : order.key.value? a <;> cases hb : order.key.value? b
    case none.none => exact Or.inr ⟨rfl, htie (ha.trans hb.symm)⟩
    case none.some => simp [hlack ha] at hb
    case some.none => exact Or.inl trivial
    case some.some v w =>
      rcases hdirect v w ha hb with rfl | hleads
      · exact Or.inr ⟨rfl, htie (ha.trans hb.symm)⟩
      · exact Or.inl hleads
  · intro h
    refine ⟨h.imp fun {a b} hab ha => ?_, h.imp fun {a b} hab v w ha hb => ?_,
      h.imp fun {a b} hab heq => ?_⟩
    · rcases hab with hleads | ⟨heq, -⟩
      · rw [ha] at hleads
        exact hleads.elim
      · rw [← heq, ha]
    · rcases hab with hleads | ⟨heq, -⟩
      · rw [ha, hb] at hleads
        exact Or.inr hleads
      · rw [ha, hb, Option.some_inj] at heq
        exact Or.inl heq
    · -- the attribute finds the two items equal, so that only their ids are left to compare
      rw [← compare_eq_lt, compare, (compareKey_eq_eq_iff order a b).mpr heq] at hab
      exact Text.compare_eq_lt.mp hab

/-- Items with different ids are arranged by sorting. -/
theorem isArranged_sort {items : List Item} (hids : (items.map (·.id)).Nodup) :
    order.IsArranged (order.sort items) := by
  have hordered : (order.sort items).Pairwise fun a b => (order.compare a b).isLE :=
    pairwise_mergeSort order.compare items
  have hdistinct : (order.sort items).Pairwise fun a b => a.id ≠ b.id :=
    List.pairwise_map.mp (((List.mergeSort_perm items _).map _).nodup_iff.mpr hids)
  refine isArranged_iff.mpr ((hordered.and hdistinct).imp fun {a b} ⟨hle, hne⟩ => ?_)
  rw [← compare_eq_lt]
  -- items that are equal in the comparison have one id, which no two of them have
  rcases Ordering.isLE_iff_eq_lt_or_eq_eq.mp hle with hlt | heq
  · exact hlt
  · exact absurd (compare_eq_eq.mp heq).2 hne

/-- The same items are arranged in one way only. -/
theorem IsArranged.unique {items others : List Item} (h : order.IsArranged items)
    (hothers : order.IsArranged others) (hperm : items.Perm others) : items = others :=
  hperm.eq_of_pairwise (fun _ _ _ _ hab hba => absurd hba hab.asymm) (isArranged_iff.mp h)
    (isArranged_iff.mp hothers)

/-- The comparison of a sort order is a total preorder, in which items tie if they agree in the
attribute and in their ids. Items with different ids are sorted, whatever their order was, into the
only arrangement of them. -/
theorem sort_arranges (order : SortOrder) :
    (∀ a b, (order.compare a b).isLE ∨ (order.compare b a).isLE) ∧
    (∀ a b, order.compare b a = (order.compare a b).swap) ∧
    (∀ a b c, (order.compare a b).isLE → (order.compare b c).isLE → (order.compare a c).isLE) ∧
    (∀ a b, order.compare a b = .eq ↔ order.key.value? a = order.key.value? b ∧ a.id = b.id) ∧
    ∀ items : List Item, (items.map (·.id)).Nodup →
      (order.sort items).Perm items ∧ order.IsArranged (order.sort items) ∧
      (∀ others, others.Perm items → order.sort others = order.sort items) ∧
      ∀ others, others.Perm items → order.IsArranged others → others = order.sort items := by
  have hswap : ∀ a b, order.compare b a = (order.compare a b).swap := fun _ _ =>
    Std.OrientedCmp.eq_swap
  refine ⟨fun a b => ?_, hswap, fun _ _ _ => Std.TransCmp.isLE_trans, fun _ _ => compare_eq_eq,
    fun items hids => ?_⟩
  · rw [hswap a b]
    cases order.compare a b <;> simp
  · have hsorted : order.IsArranged (order.sort items) := isArranged_sort hids
    have hperm : (order.sort items).Perm items := List.mergeSort_perm items _
    refine ⟨hperm, hsorted, fun others hothers => ?_, fun others hothers harranged => ?_⟩
    -- both are arranged and have the same items, so they are the same
    · have hids' : (others.map (·.id)).Nodup := (hothers.map _).nodup_iff.mpr hids
      have hperm' : (order.sort others).Perm others := List.mergeSort_perm others _
      exact (isArranged_sort hids').unique hsorted (hperm'.trans (hothers.trans hperm.symm))
    · exact harranged.unique hsorted (hothers.trans hperm.symm)

/-- An item with an id, and perhaps with a rating. -/
def ratedItem (id : String) (rating : Option UInt8) : Item :=
  { id, title := "", collectionName := "", dateAdded := ⟨0, 0⟩, rating }

/-- Sorted by rating, equal ratings go by the id, and items without a rating come last. -/
theorem sort_arranges_rated :
    let order : SortOrder := { key := .rating }
    let items := [ratedItem "d" none, ratedItem "c" (some 4), ratedItem "b" none,
      ratedItem "a" (some 4), ratedItem "e" (some 5)]
    (items.map (·.id)).Nodup ∧
      order.sort items = [ratedItem "e" (some 5), ratedItem "a" (some 4), ratedItem "c" (some 4),
        ratedItem "b" none, ratedItem "d" none] := by
  intro order items
  let arranged := [ratedItem "e" (some 5), ratedItem "a" (some 4), ratedItem "c" (some 4),
    ratedItem "b" none, ratedItem "d" none]
  have hids : (items.map (·.id)).Nodup := by decide
  -- each item precedes all that follow it, so there is no other arrangement
  have hordered : arranged.Pairwise fun a b => order.compare a b = .lt := by decide
  have harranged : order.IsArranged arranged :=
    isArranged_iff.mpr (hordered.imp compare_eq_lt.mp)
  obtain ⟨-, -, -, -, hsort⟩ := sort_arranges order
  exact ⟨hids, ((hsort items hids).2.2.2 arranged (by decide) harranged).symm⟩

end SortOrder

end Curation
