/-!
# Names of files

The name of a file consists of a stem and perhaps an extension, which is what follows the last
point. A point at the start of a name does not start an extension.

* `FileName.split`: stem and extension of a name.
* `FileName.withExtension`: a name with another extension.
-/

namespace Curation.FileName

/-- The characters before the last point and those after it, if there is a point. -/
def splitLast? : List Char → Option (List Char × List Char)
  | [] => none
  | c :: s =>
    match splitLast? s with
    | some (stem, extension) => some (c :: stem, extension)
    | none => if c = '.' then some ([], s) else none

/-- The stem and the extension of a name. -/
def split (name : String) : String × Option String :=
  match splitLast? name.toList with
  | none => (name, none)
  | some ([], _) => (name, none)
  | some (stem, extension) => (String.ofList stem, some (String.ofList extension))

/-- The name with another extension, or with one if it has none. -/
def withExtension (name extension : String) : String := (split name).1 ++ "." ++ extension

/-- A name may have this number of bytes. -/
def maxBytes : Nat := 255

end Curation.FileName
