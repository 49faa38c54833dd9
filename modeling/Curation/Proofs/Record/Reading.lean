import Curation.Record.Reading

/-!
# Reading fields

What the fields of a written record are read as.

* `Record.members?_object`: an object without a name that is told twice is read as a record.
* `Record.required?_of_lookup`, `Record.withDefault?_of_lookup`, `Record.optional?_of_lookup`: a
  field, where it is told.
* `Record.bind_tagged?_writeTagged`, `Record.bind_tagged?_writeBare`: a choice is read by its name
  and its content.
* `Record.list?_map`: a sequence is read back if its elements are.
* `Record.uint8?_ofNat`, `Record.uint32?_ofNat`, `Record.uint64?_ofNat`: an integer of 8, 32 or 64
  bits.
-/

namespace Curation.Record

/-- A step of a reading that has a value goes on with that value. -/
theorem bind_eq_some {o : Option α} {f : α → Option β} {a : α} {b : β} (ho : o = some a)
    (hf : f a = some b) : (o >>= f) = some b := by
  rw [ho]
  exact hf

theorem ofNat_ne_null (n : Nat) : ofNat n ≠ .null := Json.noConfusion

/-- A number below the bound is read back. -/
theorem natural?_ofNat {bound n : Nat} (h : n < bound) :
    natural? bound (ofNat n) = some n := by
  show (if 0 ≤ (n : Int) ∧ (n : Int) < bound then some (n : Int).toNat else none) = some n
  rw [if_pos ⟨Int.natCast_nonneg n, Int.ofNat_lt.mpr h⟩, Int.toNat_natCast]

theorem uint8?_ofNat (n : UInt8) : uint8? (ofNat n.toNat) = some n := by
  rw [uint8?, natural?_ofNat n.toNat_lt, Option.map_some, UInt8.ofNat_toNat]

theorem uint32?_ofNat (n : UInt32) : uint32? (ofNat n.toNat) = some n := by
  rw [uint32?, natural?_ofNat n.toNat_lt, Option.map_some, UInt32.ofNat_toNat]

theorem uint64?_ofNat (n : UInt64) : uint64? (ofNat n.toNat) = some n := by
  rw [uint64?, natural?_ofNat n.toNat_lt, Option.map_some, UInt64.ofNat_toNat]

/-- A name occurs among members as often as among their names. -/
theorem occurrences_eq (name : String) (members : Members) :
    occurrences name members = (members.map (·.1)).count name := by
  rw [occurrences, List.count_eq_countP, List.countP_map, List.countP_eq_length_filter]
  rfl

/-- The members of an object are fields if none of them is told twice. -/
theorem namedMembers?_object {names : List String} {members : Members}
    (h : (members.map (·.1)).Nodup) : namedMembers? names (.object members) = some members := by
  have hone : names.all fun name => occurrences name members ≤ 1 := by
    simp only [List.all_eq_true, decide_eq_true_eq, occurrences_eq]
    exact fun name _ => List.nodup_iff_count.mp h name
  rw [namedMembers?, if_pos hone]

/-- The members of an object are those of the record if none of them is told twice. -/
theorem members?_object {names : List String} {members : Members}
    (h : (members.map (·.1)).Nodup) : members? names (.object members) = some members := by
  rw [members?, namedMembers?_object h]
  nofun

/-- A required member is read from what stands under its name. -/
theorem required?_of_lookup {members : Members} {name : String} {read? : Json → Option α}
    {v : Json} (h : members.lookup name = some v) : required? members name read? = read? v := by
  rw [required?, h, Option.bind_some]

theorem withDefault?_of_lookup {members : Members} {name : String} {read? : Json → Option α}
    {v : Json} {default : α} (h : members.lookup name = some v) :
    withDefault? members name read? default = read? v := by
  rw [withDefault?, h]

/-- A field that a record may lack is read where it is told. -/
theorem optional?_of_lookup {members : Members} {name : String} {read? : Json → Option α}
    (value : Json) (h : members.lookup name = some value) (hvalue : value ≠ .null) :
    optional? members name read? = (read? value).map some := by
  rw [optional?, h]
  cases value with
  | null => exact absurd rfl hvalue
  | _ => rfl

section Choice

variable {tag content name : String} {value : Json} {read? : String × Option Json → Option α}
  {a : α}

/-- A choice whose members are told once goes on with its name and its content. -/
theorem bind_tagged?_object {members : Members} {told? : Option Json}
    (hnodup : (members.map (·.1)).Nodup) (htag : members.lookup tag = some (.string name))
    (hcontent : members.lookup content = told?) (hread : read? (name, told?) = some a) :
    (tagged? tag content (.object members) >>= read?) = some a := by
  have hone (other : String) : occurrences other members ≤ 1 := by
    rw [occurrences_eq]
    exact List.nodup_iff_count.mp hnodup other
  refine bind_eq_some (a := (name, told?)) ?_ hread
  rw [tagged?, if_pos ⟨hone tag, hone content⟩, htag, hcontent]
  rfl

/-- A choice with content goes on with its name, as an unknown that equals it, and its content. -/
theorem bind_tagged?_writeTagged (hne : tag ≠ content)
    (hread : ∀ told, told = name → read? (told, some value) = some a) :
    (tagged? tag content (writeTagged tag content name value) >>= read?) = some a := by
  refine bind_tagged?_object (by simpa using hne) List.lookup_cons_self ?_ (hread name rfl)
  rw [List.lookup_cons, beq_eq_false_iff_ne.mpr hne.symm]
  exact List.lookup_cons_self

/-- The same holds if the content stands before the name. -/
theorem bind_tagged?_contentFirst (hne : tag ≠ content)
    (hread : ∀ told, told = name → read? (told, some value) = some a) :
    (tagged? tag content (.object [(content, value), (tag, .string name)]) >>= read?) = some a := by
  refine bind_tagged?_object (by simpa using hne.symm) ?_ List.lookup_cons_self (hread name rfl)
  rw [List.lookup_cons, beq_eq_false_iff_ne.mpr hne]
  exact List.lookup_cons_self

/-- A choice without content goes on with its name alone. -/
theorem bind_tagged?_writeBare (hne : tag ≠ content)
    (hread : ∀ told, told = name → read? (told, none) = some a) :
    (tagged? tag content (writeBare tag name) >>= read?) = some a := by
  refine bind_tagged?_object (by simp) List.lookup_cons_self ?_ (hread name rfl)
  rw [List.lookup_cons, beq_eq_false_iff_ne.mpr hne.symm]
  rfl

end Choice

/-- A member that is there and can be read is filled with what is read. -/
theorem filled?_of_eq {read? : Json → Option α} {value : Json} {a : α}
    (h : read? value = some a) : filled? read? (some value) = some a := h

/-- The content of a choice is read back. -/
theorem map_filled?_of_eq {f : α → β} {read? : Json → Option α} {value : Json} {a : α}
    (h : read? value = some a) : (filled? read? (some value)).map f = some (f a) := by
  rw [filled?_of_eq h, Option.map_some]

/-- Elements that are read back one by one are read back together. -/
theorem mapM_map {read? : β → Option α} {write : α → β} {elements : List α}
    (h : ∀ a ∈ elements, read? (write a) = some a) :
    (elements.map write).mapM read? = some elements := by
  induction elements with
  | nil => rfl
  | cons a elements ih =>
    rw [List.forall_mem_cons] at h
    rw [List.map_cons, List.mapM_cons, h.1]
    exact bind_eq_some rfl (bind_eq_some (ih h.2) rfl)

/-- Elements that are read back one by one are read back from their array. -/
theorem list?_map {read? : Json → Option α} {write : α → Json} {elements : List α}
    (h : ∀ a ∈ elements, read? (write a) = some a) :
    list? read? (.array (elements.map write)) = some elements := mapM_map h

end Curation.Record
