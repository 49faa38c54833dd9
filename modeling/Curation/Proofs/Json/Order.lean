import Curation.Json.Value

/-!
# Sorted form

The objects of a value in sorted form have their members in ascending order of names, and so no name
twice. A member can then be told by its name.

* `Json.sorted_object_iff`: which objects are in sorted form.
* `Json.lookup_eq_some_iff`: the member of a name.
* `Json.sorted_of_get?`: the members of an object in sorted form are so too.
-/

namespace Curation.Json

variable {members : List (String × Json)} {name : String} {value : Json}

/-- A name behind all others is put at the end. -/
theorem insertMember_of_forall_lt (h : ∀ member ∈ members, member.1 < name) :
    insertMember name value members = members ++ [(name, value)] := by
  induction members with
  | nil => rfl
  | cons member members ih =>
    obtain ⟨hmember, hmembers⟩ := List.forall_mem_cons.mp h
    have hlt : ¬ name < member.1 := fun hlt => String.lt_irrefl _ (String.lt_trans hmember hlt)
    have hne : name ≠ member.1 := fun heq => String.lt_irrefl _ (heq ▸ hmember)
    rw [insertMember, if_neg hlt, if_neg hne, ih hmembers, List.cons_append]

/-- A member is put among those that stand before or behind it. -/
theorem forall_lt_insertMember {first : String} (h : ∀ member ∈ members, first < member.1)
    (hname : first < name) : ∀ member ∈ insertMember name value members, first < member.1 := by
  induction members with
  | nil => simpa [insertMember] using hname
  | cons member members ih =>
    obtain ⟨hmember, hmembers⟩ := List.forall_mem_cons.mp h
    unfold insertMember
    split
    · exact List.forall_mem_cons.mpr ⟨hname, h⟩
    · split
      · exact List.forall_mem_cons.mpr ⟨hname, hmembers⟩
      · exact List.forall_mem_cons.mpr ⟨hmember, ih hmembers⟩

/-- Members in ascending order stay so when another one is put among them. -/
theorem pairwise_insertMember (h : members.Pairwise (·.1 < ·.1)) :
    (insertMember name value members).Pairwise (·.1 < ·.1) := by
  induction members with
  | nil => exact List.pairwise_singleton _ _
  | cons member members ih =>
    obtain ⟨hmember, hmembers⟩ := List.pairwise_cons.mp h
    unfold insertMember
    split
    · next hlt =>
      refine List.pairwise_cons.mpr ⟨List.forall_mem_cons.mpr ⟨hlt, fun other hother => ?_⟩, h⟩
      exact String.lt_trans hlt (hmember other hother)
    · next hlt =>
      split
      · next heq =>
        -- a member of this name is replaced where it stands
        subst heq
        exact List.pairwise_cons.mpr ⟨hmember, hmembers⟩
      · next hne =>
        -- the new member comes later, and nothing before it changes
        have hgt : member.1 < name := Std.lt_of_le_of_ne (Std.not_lt.mp hlt) (Ne.symm hne)
        exact List.pairwise_cons.mpr ⟨forall_lt_insertMember hmember hgt, ih hmembers⟩

/-- Members are put into ascending order. -/
theorem pairwise_sortedMembers {before : List (String × Json)} (h : before.Pairwise (·.1 < ·.1)) :
    (sortedMembers before members).Pairwise (·.1 < ·.1) := by
  induction members generalizing before with
  | nil => simpa [sortedMembers] using h
  | cons member members ih =>
    rw [sortedMembers]
    exact ih (pairwise_insertMember h)

/-- Members in ascending order keep their places. -/
theorem sortedMembers_of_pairwise {before : List (String × Json)}
    (h : ((before ++ members).map (·.1)).Pairwise (· < ·)) : sortedMembers before members =
      before ++ members.map fun member => (member.1, member.2.sorted) := by
  induction members generalizing before with
  | nil => simp [sortedMembers]
  | cons member members ih =>
    have hbefore : ∀ other ∈ before, other.1 < member.1 := fun other hother =>
      (List.pairwise_append.mp (List.pairwise_map.mp h)).2.2 other hother member List.mem_cons_self
    rw [sortedMembers, insertMember_of_forall_lt hbefore, ih (by simpa using h), List.append_assoc]
    rfl

/-- An object is in sorted form if its names ascend and its members are in sorted form. -/
theorem sorted_object_iff : (object members).sorted = object members ↔
    members.Pairwise (·.1 < ·.1) ∧ ∀ member ∈ members, member.2.sorted = member.2 := by
  rw [sorted, object.injEq]
  -- in ascending order nothing changes but the values of the members
  have hself (h : members.Pairwise (·.1 < ·.1)) : sortedMembers [] members = members ↔
      ∀ member ∈ members, member.2.sorted = member.2 := by
    rw [@sortedMembers_of_pairwise members [] (List.pairwise_map.mpr h), List.nil_append]
    conv => lhs; rhs; rw [← List.map_id members]
    rw [List.map_inj_left]
    simp [Prod.ext_iff]
  constructor
  · intro h
    have hpairwise : members.Pairwise (·.1 < ·.1) := h ▸ pairwise_sortedMembers .nil
    exact ⟨hpairwise, (hself hpairwise).mp h⟩
  · rintro ⟨hpairwise, hmembers⟩
    exact (hself hpairwise).mpr hmembers

/-- Among members in ascending order, a name tells its member. -/
theorem lookup_eq_some_iff (h : members.Pairwise (·.1 < ·.1)) :
    members.lookup name = some value ↔ (name, value) ∈ members := by
  rw [List.lookup_eq_some_iff]
  constructor
  · rintro ⟨before, after, rfl, -⟩
    exact List.mem_append_right before List.mem_cons_self
  · intro hmem
    obtain ⟨before, after, rfl⟩ := List.append_of_mem hmem
    -- members before it have smaller names
    refine ⟨before, after, rfl, fun member hmember => ?_⟩
    have hlt := (List.pairwise_append.mp h).2.2 member hmember _ List.mem_cons_self
    exact bne_iff_ne.mpr fun heq => String.lt_irrefl _ (heq ▸ hlt)

/-- Only objects have members. -/
theorem exists_lookup_of_get? {document : Json} (h : document.get? name = some value) :
    ∃ members, document = object members ∧ members.lookup name = some value := by
  cases document with
  | object members => exact ⟨members, rfl, h⟩
  | _ => cases h

/-- The members of an object in sorted form are in sorted form. -/
theorem sorted_of_get? {document : Json} (h : document.sorted = document)
    (hget : document.get? name = some value) : value.sorted = value := by
  obtain ⟨members, rfl, hlookup⟩ := exists_lookup_of_get? hget
  obtain ⟨hpairwise, hmembers⟩ := sorted_object_iff.mp h
  exact hmembers _ ((lookup_eq_some_iff hpairwise).mp hlookup)

end Curation.Json
