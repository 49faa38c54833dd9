import Curation.Proofs.Record.Reading
import Curation.Proofs.Time.Text
import Curation.Record.Rules

/-!
# Reading records of staleness

A state of staleness is read back from its record, whichever of its instants it lacks.

* `Record.optional?_of_lookup_map`: a field that a record may lack is read back.
* `StalenessState.ofJson?_toJson_of`: a state is read with its instants as they are read.
* `StalenessState.ofJson?_toJson`: a state is read back.
-/

namespace Curation

namespace Record

/-- A member that is written only if it has a value is looked up before the others. -/
theorem lookup_member? {α : Type} (name other : String) (write : α → Json) (o : Option α)
    (rest : Members) :
    (member? name write o ++ rest).lookup other =
      if other = name then (o.map write).or (rest.lookup other) else rest.lookup other := by
  cases o with
  | none => simp [member?]
  | some a =>
    rw [member?, List.cons_append, List.nil_append, List.lookup_cons]
    by_cases h : other = name
    · simp [h]
    · simp only [beq_eq_false_iff_ne.mpr h, if_neg h]

theorem lookup_member?_nil {α : Type} (name other : String) (write : α → Json) (o : Option α) :
    (member? name write o).lookup other = if other = name then o.map write else none := by
  simpa using lookup_member? name other write o []

/-- A field that a record may lack is read back, whether it is there or not. -/
theorem optional?_of_lookup_map {α β : Type} {members : Members} {name : String}
    (write : α → Json) {read? : Json → Option β} {f : α → β} {o : Option α}
    (hlookup : members.lookup name = o.map write)
    (hread : ∀ a ∈ o, read? (write a) = some (f a)) (hnull : ∀ a, write a ≠ .null) :
    optional? members name read? = some (o.map f) := by
  cases o with
  | none => rw [optional?, hlookup]; rfl
  | some a =>
    rw [optional?_of_lookup (write a) hlookup (hnull a), hread a rfl]
    rfl

/-- A field that a record may lack is read back as it was. -/
theorem optional?_of_lookup_map_self {α : Type} {members : Members} {name : String}
    (write : α → Json) {read? : Json → Option α} {o : Option α}
    (hlookup : members.lookup name = o.map write)
    (hread : ∀ a ∈ o, read? (write a) = some a) (hnull : ∀ a, write a ≠ .null) :
    optional? members name read? = some o := by
  rw [optional?_of_lookup_map (f := id) write hlookup hread hnull, Option.map_id]
  rfl

end Record

open Record

/-- An instant that can be written is read back as it was written. -/
theorem Instant.ofJson?_toJson {t : Instant} (h : t.IsWritable) :
    ofJson? t.toJson = some t.written := by
  rw [ofJson?, toJson, string?, Option.bind_some, ofText?_text h]

theorem Instant.toJson_ne_null (t : Instant) : t.toJson ≠ .null := nofun

namespace StalenessState

/-- The states whose instants have texts. -/
def IsWritable (state : StalenessState) : Prop :=
  (∀ t ∈ state.lastEvaluated, t.IsWritable) ∧ ∀ t ∈ state.invalidatedSince, t.IsWritable

instance (state : StalenessState) : Decidable state.IsWritable :=
  inferInstanceAs (Decidable (_ ∧ _))

/-- The state that the record of a state tells. -/
def written (state : StalenessState) : StalenessState where
  lastEvaluated := state.lastEvaluated.map Instant.written
  invalidatedSince := state.invalidatedSince.map Instant.written

/-- A state is read from its record, each instant as it is read by itself. -/
theorem ofJson?_toJson_of {state : StalenessState} {f : Instant → Instant}
    (hlast : ∀ t ∈ state.lastEvaluated, Instant.ofJson? t.toJson = some (f t))
    (hsince : ∀ t ∈ state.invalidatedSince, Instant.ofJson? t.toJson = some (f t)) :
    ofJson? state.toJson = some ⟨state.lastEvaluated.map f, state.invalidatedSince.map f⟩ := by
  -- an absent instant leaves no member
  let members := member? "invalidatedSince" Instant.toJson state.invalidatedSince ++
    (member? "lastEvaluated" Instant.toJson state.lastEvaluated ++ [])
  have hobject : state.toJson = .object members := by simp [toJson, members]
  -- the two names differ, whichever members are there
  have hnodup : (members.map (·.1)).Nodup := by
    simp only [members]
    cases state.invalidatedSince <;> cases state.lastEvaluated <;> simp [member?]
  have hlast : optional? members "lastEvaluated" Instant.ofJson? =
      some (state.lastEvaluated.map f) := by
    refine optional?_of_lookup_map Instant.toJson ?_ hlast Instant.toJson_ne_null
    rw [lookup_member?, if_neg (by decide), lookup_member?, if_pos rfl, List.lookup_nil,
      Option.or_none]
  have hsince : optional? members "invalidatedSince" Instant.ofJson? =
      some (state.invalidatedSince.map f) := by
    refine optional?_of_lookup_map Instant.toJson ?_ hsince Instant.toJson_ne_null
    rw [lookup_member?, if_pos rfl, lookup_member?, if_neg (by decide), List.lookup_nil,
      Option.or_none]
  rw [hobject, ofJson?, members?_object hnodup]
  exact bind_eq_some rfl (bind_eq_some hlast (bind_eq_some hsince rfl))

/-- What is told of a state is read from its record. -/
theorem ofJson?_toJson {state : StalenessState} (h : state.IsWritable) :
    ofJson? state.toJson = some state.written :=
  ofJson?_toJson_of (fun t ht => Instant.ofJson?_toJson (h.1 t ht))
    fun t ht => Instant.ofJson?_toJson (h.2 t ht)

end StalenessState

end Curation
