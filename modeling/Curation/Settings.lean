import Curation.Failure
import Curation.Json.Reader
import Curation.Json.Writer
import Curation.Record.Reading
import Curation.Search
import Curation.Text.Quoted
import Curation.Time.Calendar

/-!
# Settings

The settings of a collection: its calendar and what searches take into account, with the version of
their form. Settings are kept as a JSON text with the fields in the order of this module.

* `Settings.parse`: the settings that a text tells.
* `Settings.text`: the text of settings.
-/

namespace Curation

open Record

/-- The first day of the week that a text names, by its short or full English name in any case. -/
def Weekday.ofText? (raw : String) : Option Weekday :=
  let text := Text.lowerAscii raw.toList
  Weekday.all.find? fun day =>
    Text.lowerAscii day.name.toList == text || Text.lowerAscii day.fullName.toList == text

/-- The calendar with an offset, or the failure that tells the offset. -/
def Calendar.ofMinutes (weekStart : Weekday) (offsetMinutes : Int) : Except Failure Calendar :=
  match Calendar.ofMinutes? weekStart offsetMinutes with
  | some calendar => .ok calendar
  | none =>
    .error (.invalidConfig ("utc offset " ++ toString offsetMinutes ++ " minutes is out of range"))

/-- Reads a calendar. -/
def Calendar.ofJson? (value : Json) : Option Calendar := do
  let members ← members? ["weekStart", "utcOffsetMinutes"] value
  let weekStart ← required? members "weekStart" fun day => (string? day).bind Weekday.ofText?
  let offsetMinutes ← required? members "utcOffsetMinutes" integer?
  Calendar.ofMinutes? weekStart offsetMinutes

/-- The calendar as a value. -/
def Calendar.toJson (calendar : Calendar) : Json :=
  .object [("weekStart", .string calendar.weekStart.name),
    ("utcOffsetMinutes", .integer calendar.offsetMinutes)]

/-- Reads what a search takes into account. -/
def SearchOptions.ofJson? (value : Json) : Option SearchOptions := do
  let members ← members? ["includeArchived", "maxResults", "snippetContextChars"] value
  let includeArchived ← withDefault? members "includeArchived" bool? false
  let maxResults ← optional? members "maxResults" uint64?
  let snippetContextChars ← withDefault? members "snippetContextChars" uint64? 40
  some { includeArchived, maxResults, snippetContextChars }

/-- What a search takes into account, as a value. -/
def SearchOptions.toJson (options : SearchOptions) : Json :=
  .object
    [("includeArchived", .bool options.includeArchived),
      ("maxResults", match options.maxResults with
        | some limit => ofNat limit.toNat
        | none => .null),
      ("snippetContextChars", ofNat options.snippetContextChars.toNat)]

/-- The settings of a collection. -/
structure Settings where
  /-- The version of the form of the settings. -/
  version : String
  calendar : Calendar
  /-- What searches take into account. -/
  search : SearchOptions := {}
  deriving DecidableEq, Repr

namespace Settings

/-- The version of the form that this module reads. -/
def currentVersion : String := "1.0.0"

/-- The settings with a calendar, in the current version. -/
def ofCalendar (calendar : Calendar) : Settings := { version := currentVersion, calendar }

/-- Reads settings of any version. -/
def ofJson? (value : Json) : Option Settings := do
  let members ← members? ["version", "calendar", "search"] value
  let version ← required? members "version" string?
  let calendar ← required? members "calendar" Calendar.ofJson?
  let search ← withDefault? members "search" SearchOptions.ofJson? {}
  some { version, calendar, search }

/-- The settings as a value. -/
def toJson (settings : Settings) : Json :=
  .object [("version", .string settings.version), ("calendar", settings.calendar.toJson),
    ("search", settings.search.toJson)]

/-- The settings that a text tells, which have to be of the current version. -/
def parse (text : String) : Except Failure Settings :=
  match (Json.read? text).bind ofJson? with
  | none => .error .undecodable
  | some settings =>
    if settings.version = currentVersion then .ok settings
    else
      .error (.invalidConfig ("unsupported config version " ++ Text.quoted settings.version ++
        " (expected " ++ currentVersion ++ ")"))

def text (settings : Settings) : String := settings.toJson.pretty

end Settings

end Curation
