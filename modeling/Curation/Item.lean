import Curation.Text.Blank
import Curation.Text.Lowercase
import Curation.Time.Text

/-!
# Items

An item is a record of a media collection: what it is, where it belongs, and what its owner did
with it. Items are searched in five fields, two of which are texts made from data.

* `PlayStatus.ofText?`, `DownloadStatus.ofText?`: the accepted spellings of a status.
* `Item.fieldText?`: the text of a field.
-/

namespace Curation

/-- A status with its parts joined and in lower case. -/
def normalStatus (raw : String) : String :=
  String.ofList ((Text.joinParts raw.toList).flatMap Text.lower)

/-- How far an item was played. -/
inductive PlayStatus where
  | unplayed
  | inProgress
  | played
  deriving DecidableEq, Repr

namespace PlayStatus

/-- All statuses. -/
def all : List PlayStatus := [unplayed, inProgress, played]

/-- The name of the status in records. -/
def name : PlayStatus → String
  | unplayed => "unplayed"
  | inProgress => "inProgress"
  | played => "played"

/-- The status that a text names, without regard to separators and case. -/
def ofText? (raw : String) : Option PlayStatus :=
  let text := normalStatus raw
  if text ∈ ["unplayed", "new"] then some unplayed
  else if text ∈ ["inprogress", "started", "partial"] then some inProgress
  else if text ∈ ["played", "finished"] then some played
  else none

end PlayStatus

/-- Whether the media of an item are at hand. -/
inductive DownloadStatus where
  | notDownloaded
  | queued
  | downloading
  | downloaded
  | failed
  deriving DecidableEq, Repr

namespace DownloadStatus

/-- All statuses. -/
def all : List DownloadStatus := [notDownloaded, queued, downloading, downloaded, failed]

/-- The name of the status in records. -/
def name : DownloadStatus → String
  | notDownloaded => "notDownloaded"
  | queued => "queued"
  | downloading => "downloading"
  | downloaded => "downloaded"
  | failed => "failed"

/-- The status that a text names, without regard to separators and case. -/
def ofText? (raw : String) : Option DownloadStatus :=
  let text := normalStatus raw
  if text ∈ ["notdownloaded", "none", "remote"] then some notDownloaded
  else if text ∈ ["queued", "pending"] then some queued
  else if text ∈ ["downloading"] then some downloading
  else if text ∈ ["downloaded", "local"] then some downloaded
  else if text ∈ ["failed", "error"] then some failed
  else none

end DownloadStatus

/-- A field of an item that can be searched. -/
inductive Field where
  | title
  | collectionName
  | description
  -- the duration, in hours, minutes or seconds
  | duration
  -- the date of publication, in two forms
  | publishDate
  deriving DecidableEq, Repr

namespace Field

/-- The fields in the order in which they are searched. -/
def searchOrder : List Field := [title, collectionName, description, duration, publishDate]

/-- The name of the field in records and in printed queries. -/
def name : Field → String
  | title => "title"
  | collectionName => "collectionName"
  | description => "description"
  | duration => "duration"
  | publishDate => "publishDate"

/-- The field that a name stands for, in any case of its ASCII letters. -/
def ofName? (name : String) : Option Field :=
  let name := String.ofList (Text.lowerAscii name.toList)
  if name ∈ ["title", "name"] then some title
  else if name ∈ ["collection", "collectionname", "show", "podcast", "feed"] then
    some collectionName
  else if name ∈ ["description", "desc", "notes"] then some description
  else if name ∈ ["duration", "length"] then some duration
  else if name ∈ ["date", "published", "publishdate"] then some publishDate
  else none

end Field

/-- A record of the collection. -/
structure Item where
  /-- What tells the item from others. -/
  id : String
  title : String
  /-- The description, empty if there is none. -/
  description : String := ""
  /-- The name of the collection that the item belongs to. -/
  collectionName : String
  /-- The duration in seconds. -/
  durationSecs : Option UInt64 := none
  /-- The instant of publication. -/
  publishDate : Option Instant := none
  /-- The instant at which the item came into the collection. -/
  dateAdded : Instant
  /-- How far the item was played. -/
  playStatus : PlayStatus := .unplayed
  /-- Whether the media are at hand. -/
  downloadStatus : DownloadStatus := .notDownloaded
  /-- The owner's rating. -/
  rating : Option UInt8 := none
  /-- Whether the owner marked the item as a favorite. -/
  isFavorited : Bool := false
  /-- Whether the owner put a bookmark on the item. -/
  isBookmarked : Bool := false
  /-- Whether the item was put away. -/
  isArchived : Bool := false
  deriving DecidableEq, Repr

/-- A duration in hours and minutes, or in seconds if it is less than a minute. -/
def durationText (secs : Nat) : String :=
  let hours := secs / 3600
  let minutes := secs % 3600 / 60
  if hours = 0 ∧ minutes = 0 then toString secs ++ "s"
  else if hours = 0 then toString minutes ++ "m"
  else if minutes = 0 then toString hours ++ "h"
  else toString hours ++ "h " ++ toString minutes ++ "m"

namespace Item

def durationText? (item : Item) : Option String :=
  item.durationSecs.map fun secs => durationText secs.toNat

/-- The date of publication as a text, in figures and with the name of the month. -/
def publishText? (item : Item) : Option String :=
  item.publishDate.map fun t => t.date.text ++ " " ++ t.date.longText

/-- The text of a field, if the item has it. -/
def fieldText? (item : Item) : Field → Option String
  | .title => some item.title
  | .collectionName => some item.collectionName
  | .description => some item.description
  | .duration => item.durationText?
  | .publishDate => item.publishText?

end Item

end Curation
