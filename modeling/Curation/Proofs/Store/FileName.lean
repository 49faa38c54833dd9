import Curation.Store.Files

/-!
# Stems and extensions of names of files

The name of a file is split at its last point. So a name that is put together from a stem and an
extension without a point is split into just these, whatever points the stem has.

* `FileName.split_append`: stem and extension of a name that is put together.
* `FileStore.keyOf?_eq_some_iff`: the names of the files that hold documents.
* `FileStore.temporary_ne_fileName`: no document is in a file that another one is first written to.
-/

namespace Curation

namespace FileName

/-- A text without a dot is not split. -/
theorem splitLast?_of_not_mem {s : List Char} (h : '.' ∉ s) : splitLast? s = none := by
  induction s with
  | nil => rfl
  | cons c s ih =>
    rw [List.mem_cons, not_or] at h
    simp only [splitLast?, ih h.2, if_neg (Ne.symm h.1)]

/-- A text is split at a dot that no other one follows. -/
theorem splitLast?_append {behind : List Char} (h : '.' ∉ behind) (before : List Char) :
    splitLast? (before ++ '.' :: behind) = some (before, behind) := by
  induction before with
  | nil => simp only [List.nil_append, splitLast?, splitLast?_of_not_mem h, if_pos]
  | cons c before ih => simp only [List.cons_append, splitLast?, ih]

/-- What a text is split into makes up the text, with a dot between. -/
theorem eq_append_of_splitLast? {s before behind : List Char}
    (h : splitLast? s = some (before, behind)) : s = before ++ '.' :: behind := by
  induction s generalizing before with
  | nil => cases h
  | cons c s ih =>
    rw [splitLast?] at h
    split at h
    -- a dot stands further on, and the text is split at that one
    · next stem extension hparts =>
      cases h
      rw [ih hparts, List.cons_append]
    · split at h
      · next hpoint =>
        cases h
        rw [hpoint, List.nil_append]
      · cases h

/-- A name is split into the stem and the extension that it was put together from. -/
theorem split_append {stem extension : String} (hstem : stem ≠ "")
    (h : '.' ∉ extension.toList) :
    split (stem ++ "." ++ extension) = (stem, some extension) := by
  have hlist : (stem ++ "." ++ extension).toList =
      stem.toList ++ '.' :: extension.toList := by simp
  obtain ⟨c, before, hbefore⟩ : ∃ c before, stem.toList = c :: before :=
    List.exists_cons_of_ne_nil (by simpa using hstem)
  rw [split, hlist, splitLast?_append h, hbefore]
  simp only
  rw [← hbefore, String.ofList_toList, String.ofList_toList]

/-- A name with an extension is put together from it and a stem that is not empty. -/
theorem eq_append_of_split {name stem extension : String}
    (h : split name = (stem, some extension)) :
    name = stem ++ "." ++ extension ∧ stem ≠ "" := by
  rw [split] at h
  split at h
  · cases h
  · cases h
  -- a dot at the front splits nothing off
  · next before behind hbefore hparts =>
    cases h
    have hlist := eq_append_of_splitLast? hparts
    refine ⟨?_, by simpa using hbefore⟩
    rw [← String.toList_inj, hlist]
    simp

end FileName

namespace FileStore

variable {key : String}

/-- The name of a file is split into the key and the extension. -/
theorem split_fileName (h : key ≠ "") :
    FileName.split (fileName key) = (key, some documentExtension) :=
  FileName.split_append h (by decide)

/-- A name tells a key just if it is the name of the file of that key. -/
theorem keyOf?_eq_some_iff {name : String} :
    keyOf? name = some key ↔ name = fileName key ∧ key ≠ "" := by
  constructor
  · intro h
    rw [keyOf?] at h
    split at h
    -- the name is split at its last dot, behind which the extension stands
    · next stem extension hsplit =>
      split at h
      · next hextension =>
        cases h
        rw [fileName, ← hextension]
        exact FileName.eq_append_of_split hsplit
      · cases h
    · cases h
  · rintro ⟨rfl, hkey⟩
    simp only [keyOf?, split_fileName hkey, if_pos]

/-- Documents of different keys have different files. -/
theorem fileName_inj {other : String} : fileName key = fileName other ↔ key = other := by
  simp [fileName, String.append_left_inj]

/-- The name of a file is five bytes longer than the key. -/
theorem utf8ByteSize_fileName (key : String) :
    (fileName key).utf8ByteSize = key.utf8ByteSize + 5 := by
  rw [fileName, String.utf8ByteSize_append, String.utf8ByteSize_append]
  rfl

/-- The file that is first written has the key and another extension. -/
theorem temporary_fileName (h : key ≠ "") :
    FileName.withExtension (fileName key) "tmp" = key ++ "." ++ "tmp" := by
  rw [FileName.withExtension, split_fileName h]

theorem utf8ByteSize_temporary (h : key ≠ "") :
    (FileName.withExtension (fileName key) "tmp").utf8ByteSize = key.utf8ByteSize + 4 := by
  rw [temporary_fileName h, String.utf8ByteSize_append, String.utf8ByteSize_append]
  rfl

/-- No document is in a file that another one is first written to. -/
theorem temporary_ne_fileName (h : key ≠ "") (other : String) :
    FileName.withExtension (fileName key) "tmp" ≠ fileName other := by
  intro heq
  rw [temporary_fileName h] at heq
  have hlast := congrArg (·.toList.getLast?) heq
  simp [fileName, documentExtension] at hlast

end FileStore

end Curation
