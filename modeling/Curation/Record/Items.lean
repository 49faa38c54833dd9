import Curation.Item
import Curation.Record.Reading

/-!
# Records of items

Items and the values that they are made of, as JSON values. Instants are texts.
-/

namespace Curation

open Record

/-- Reads an instant. -/
def Instant.ofJson? (value : Json) : Option Instant := (string? value).bind Instant.ofText?

/-- The instant as a value. -/
def Instant.toJson (t : Instant) : Json := .string t.text

/-- Reads a status. -/
def PlayStatus.ofJson? : Json → Option PlayStatus := choice? PlayStatus.all PlayStatus.name

/-- The status as a value. -/
def PlayStatus.toJson (status : PlayStatus) : Json := .string status.name

/-- Reads a status. -/
def DownloadStatus.ofJson? : Json → Option DownloadStatus :=
  choice? DownloadStatus.all DownloadStatus.name

/-- The status as a value. -/
def DownloadStatus.toJson (status : DownloadStatus) : Json := .string status.name

/-- Reads a field. -/
def Field.ofJson? : Json → Option Field := choice? Field.searchOrder Field.name

/-- The field as a value. -/
def Field.toJson (field : Field) : Json := .string field.name

namespace Item

/-- The fields of an item record, in order. -/
def memberNames : List String :=
  ["id", "title", "description", "collectionName", "durationSecs", "publishDate", "dateAdded",
    "playStatus", "downloadStatus", "rating", "isFavorited", "isBookmarked", "isArchived"]

/-- Reads an item. -/
def ofJson? (value : Json) : Option Item := do
  let members ← members? memberNames value
  let id ← required? members "id" string?
  let title ← required? members "title" string?
  let description ← withDefault? members "description" string? ""
  let collectionName ← required? members "collectionName" string?
  let durationSecs ← optional? members "durationSecs" uint64?
  let publishDate ← optional? members "publishDate" Instant.ofJson?
  let dateAdded ← required? members "dateAdded" Instant.ofJson?
  let playStatus ← required? members "playStatus" PlayStatus.ofJson?
  let downloadStatus ← required? members "downloadStatus" DownloadStatus.ofJson?
  let rating ← optional? members "rating" uint8?
  let isFavorited ← withDefault? members "isFavorited" bool? false
  let isBookmarked ← withDefault? members "isBookmarked" bool? false
  let isArchived ← withDefault? members "isArchived" bool? false
  some
    { id, title, description, collectionName, durationSecs, publishDate, dateAdded, playStatus,
      downloadStatus, rating, isFavorited, isBookmarked, isArchived }

/-- The item as a value. -/
def toJson (item : Item) : Json :=
  .object <|
    [("collectionName", .string item.collectionName),
      ("dateAdded", item.dateAdded.toJson),
      ("description", .string item.description),
      ("downloadStatus", item.downloadStatus.toJson)] ++
    member? "durationSecs" (fun secs => ofNat secs.toNat) item.durationSecs ++
    [("id", .string item.id),
      ("isArchived", .bool item.isArchived),
      ("isBookmarked", .bool item.isBookmarked),
      ("isFavorited", .bool item.isFavorited),
      ("playStatus", item.playStatus.toJson)] ++
    member? "publishDate" Instant.toJson item.publishDate ++
    member? "rating" (fun rating => ofNat rating.toNat) item.rating ++
    [("title", .string item.title)]

end Item

end Curation
