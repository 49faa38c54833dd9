import Curation.Proofs.Json.RoundTrip
import Curation.Proofs.Record.Reading
import Curation.Settings

/-!
# Reading written settings

Settings of the current version are read back from their text as they were.

* `Settings.ofJson?_toJson`: settings are read back from their value.
* `Settings.parse_text`: settings are read back from their text.
-/

namespace Curation

open Record

/-- The name of a day of the week names it. -/
theorem Weekday.ofText?_name (day : Weekday) : Weekday.ofText? day.name = some day := by
  cases day <;> decide +kernel

theorem Calendar.ofJson?_toJson (calendar : Calendar) :
    Calendar.ofJson? calendar.toJson = some calendar := by
  rw [toJson, ofJson?, members?_object (by simp)]
  refine bind_eq_some rfl (bind_eq_some (a := calendar.weekStart) ?_
    (bind_eq_some (a := calendar.offsetMinutes) ?_ (dif_pos calendar.offset_lt)))
  · simp [required?, string?, Weekday.ofText?_name]
  · simp [required?, List.lookup_cons, integer?]

theorem SearchOptions.ofJson?_toJson (options : SearchOptions) :
    SearchOptions.ofJson? options.toJson = some options := by
  rw [toJson, ofJson?, members?_object (by simp)]
  refine bind_eq_some rfl (bind_eq_some (a := options.includeArchived) ?_
    (bind_eq_some (a := options.maxResults) ?_
      (bind_eq_some (a := options.snippetContextChars) ?_ rfl)))
  · simp [withDefault?, bool?]
  · cases options.maxResults with
    | none => simp [optional?, List.lookup_cons]
    | some limit =>
      rw [optional?_of_lookup (ofNat limit.toNat) (by simp [List.lookup_cons]) (ofNat_ne_null _),
        uint64?_ofNat, Option.map_some]
  · simp [withDefault?, List.lookup_cons, uint64?_ofNat]

/-- Settings are read back from their record. -/
theorem Settings.ofJson?_toJson (settings : Settings) :
    Settings.ofJson? settings.toJson = some settings := by
  rw [toJson, ofJson?, members?_object (by simp)]
  refine bind_eq_some rfl (bind_eq_some (a := settings.version) ?_
    (bind_eq_some (a := settings.calendar) ?_ (bind_eq_some (a := settings.search) ?_ rfl)))
  · simp [required?, string?]
  · simp [required?, List.lookup_cons, Calendar.ofJson?_toJson]
  · simp [withDefault?, List.lookup_cons, SearchOptions.ofJson?_toJson]

/-- A number of 64 bits is written exactly. -/
theorem isExact_ofNat (n : UInt64) : (ofNat n.toNat).isExact := by
  have hlt := n.toNat_lt
  rw [ofNat, Json.isExact, Bool.and_eq_true, decide_eq_true_eq, decide_eq_true_eq]
  omega

theorem Calendar.isExact_toJson (calendar : Calendar) : calendar.toJson.isExact := by
  have hlt := calendar.offset_lt
  simp only [toJson, Json.isExact, Json.membersAreExact, Bool.and_eq_true, decide_eq_true_eq,
    Bool.true_and, Bool.and_true]
  omega

theorem SearchOptions.isExact_toJson (options : SearchOptions) : options.toJson.isExact := by
  cases hlimit : options.maxResults with
  | none =>
    simp [toJson, hlimit, Json.isExact, Json.membersAreExact, isExact_ofNat]
  | some limit =>
    simp [toJson, hlimit, Json.isExact, Json.membersAreExact, isExact_ofNat]

/-- The record of settings is written exactly. -/
theorem Settings.isExact_toJson (settings : Settings) : settings.toJson.isExact := by
  simp [toJson, Json.isExact, Json.membersAreExact, Calendar.isExact_toJson,
    SearchOptions.isExact_toJson]

/-- Settings of the current version are read back from their text. -/
theorem Settings.parse_text {settings : Settings} (h : settings.version = currentVersion) :
    parse settings.text = .ok settings := by
  rw [parse, text, Json.read?_pretty settings.isExact_toJson, Option.bind_some,
    ofJson?_toJson]
  simp only [if_pos h]

end Curation
