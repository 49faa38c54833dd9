import Curation.Proofs.Settings.RoundTrip
import Curation.Proofs.Store.FileTree
import Curation.Proofs.Text.Encoding
import Curation.Settings.File

/-!
# Settings kept in files

What is loaded from the files that settings were saved to. Settings are first written to a file
beside their own, whose name has the extension `tmp`. If settings are kept in a file of that name,
they are lost.

* `Settings.Saving`: settings to be saved.
* `Settings.load_run?`: what is loaded after several savings.
* `Settings.load_run?_lost`: settings that are lost.
-/

namespace Curation.Settings

/-- Settings to be saved to a file of a directory. -/
structure Saving where
  directory : Path
  name : String
  settings : Settings

namespace Saving

/-- The file in which the settings are kept. -/
def path (saving : Saving) : Path := saving.directory ++ [saving.name]

/-- The file to which the settings are written before they are kept. -/
def temporary (saving : Saving) : Path := FileTree.temporary saving.directory saving.name

/-- The tree after several savings, one after another, if none of them fails. -/
def run? (tree : FileTree) : List Saving → Option FileTree
  | [] => some tree
  | saving :: savings =>
    match saving.settings.save tree saving.directory saving.name with
    | (.ok (), tree) => run? tree savings
    | (.error _, _) => none

end Saving

variable {tree after : FileTree} {saving : Saving} {savings later : List Saving} {path : Path}

/-- Savings are made one after another, as long as they succeed. -/
theorem run?_append (before : List Saving) :
    Saving.run? tree (before ++ later) =
      (Saving.run? tree before).bind fun tree => Saving.run? tree later := by
  induction before generalizing tree with
  | nil => rfl
  | cons saving before ih =>
    rw [List.cons_append, Saving.run?, Saving.run?]
    split
    · exact ih
    · rfl

/-- What a saving that succeeds does to the files: its own is written, the one that it was written
to before is gone, the directories on the way are there, none in place of a file, and all else
stays. -/
theorem exists_of_run?_cons (h : Saving.run? tree (saving :: later) = some after) :
    ∃ saved : FileTree, Saving.run? saved later = some after ∧
      saved.read saving.path = .ok saving.settings.text.toUTF8 ∧
      (∀ way content, way <+: saving.directory → tree.nodes[way]? ≠ some (.file content)) ∧
      ∀ path, saved.nodes[path]? =
        if saving.path = path then some (.file saving.settings.text.toUTF8)
        else if saving.temporary = path then none
        else if path <+: saving.directory then some .directory
        else tree.nodes[path]? := by
  rw [Saving.run?, save] at h
  cases hresult :
      tree.replaceFile saving.directory saving.name saving.settings.text.toUTF8 with
  | mk result saved =>
    rw [hresult] at h
    cases result with
    | error => cases h
    | ok =>
      -- the first saving succeeds, or none of the others is made
      have hok : (tree.replaceFile saving.directory saving.name
          saving.settings.text.toUTF8).1 = .ok () := by rw [hresult]
      have hnodes := FileTree.getElem?_replaceFile hok
      have hread := FileTree.read_replaceFile hok
      rw [hresult] at hread
      simp only [hresult] at hnodes
      have hmade := (FileTree.replaceFile_eq_ok_iff.mp hok).1
      exact ⟨saved, h, hread, (FileTree.makeDirectories_eq_ok_iff.mp hmade).2, hnodes⟩

/-- A file that no saving is about is kept. -/
theorem read_of_run? {content : ByteArray} (hrun : Saving.run? tree savings = some after)
    (hread : tree.read path = .ok content) (hpath : ∀ other ∈ savings, other.path ≠ path)
    (htemporary : ∀ other ∈ savings, other.temporary ≠ path) :
    after.read path = .ok content := by
  induction savings generalizing tree with
  | nil =>
    cases hrun
    exact hread
  | cons saving savings ih =>
    rw [List.forall_mem_cons] at hpath htemporary
    obtain ⟨saved, hrest, -, hway, hnodes⟩ := exists_of_run?_cons hrun
    refine ih hrest ?_ hpath.2 htemporary.2
    rw [FileTree.read_eq_ok_iff] at hread ⊢
    -- a file stands at the path, so it is no directory on the way of the saving
    have hprefix : ¬ path <+: saving.directory := fun hprefix => hway path content hprefix hread.1
    rw [hnodes, if_neg hpath.1, if_neg htemporary.1, if_neg hprefix]
    exact hread

/-- Where there is no file, there is none until one is saved. -/
theorem ne_file_of_run? (hrun : Saving.run? tree savings = some after)
    (hnone : ∀ content, tree.nodes[path]? ≠ some (.file content))
    (hpath : ∀ other ∈ savings, other.path ≠ path) (content : ByteArray) :
    after.nodes[path]? ≠ some (.file content) := by
  induction savings generalizing tree with
  | nil =>
    cases hrun
    exact hnone content
  | cons saving savings ih =>
    rw [List.forall_mem_cons] at hpath
    obtain ⟨saved, hrest, -, -, hnodes⟩ := exists_of_run?_cons hrun
    refine ih hrest (fun content => ?_) hpath.2
    -- the saving leaves a file nowhere but at its own path
    rw [hnodes, if_neg hpath.1]
    split
    · nofun
    · split
      · nofun
      · exact hnone content

/-- A file is gone if settings were written to it before they were kept in another one. -/
theorem ne_file_of_temporary (hrun : Saving.run? tree savings = some after)
    (hpath : ∀ other ∈ savings, other.path ≠ path)
    (htemporary : ∃ other ∈ savings, other.temporary = path) (content : ByteArray) :
    after.nodes[path]? ≠ some (.file content) := by
  obtain ⟨other, hother, htemporary⟩ := htemporary
  -- the file is gone after the saving that wrote to it before, and none later makes it again
  obtain ⟨before, later, rfl⟩ := List.append_of_mem hother
  rw [run?_append, Option.bind_eq_some_iff] at hrun
  obtain ⟨between, -, hrun⟩ := hrun
  obtain ⟨saved, hrest, -, -, hnodes⟩ := exists_of_run?_cons hrun
  have hgone : ∀ content, saved.nodes[path]? ≠ some (.file content) := by
    rw [hnodes, if_neg (hpath other hother), if_pos htemporary]
    nofun
  exact ne_file_of_run? hrest hgone (fun next hnext => hpath next (by simp [hnext])) content

/-- Settings of the current version are loaded from a file that holds their text. -/
theorem load_of_read {settings : Settings} (h : tree.read path = .ok settings.text.toUTF8)
    (hversion : settings.version = currentVersion) : load tree path = .ok settings := by
  rw [load, h]
  simp only [Text.fromUTF8?_toUTF8]
  exact parse_text hversion

/-- Nothing is loaded where no file stands. -/
theorem load_of_ne_file (h : ∀ content, tree.nodes[path]? ≠ some (.file content)) :
    load tree path = .error .inaccessible := by
  rw [load]
  split
  · rfl
  · next content hread => exact absurd (FileTree.read_eq_ok_iff.mp hread).1 (h content)

/-- After several savings, what was last saved to a file is loaded from it, unless other settings
were later written to it before they were kept elsewhere: then there is no such file. -/
theorem load_run? (before later : List Saving) (saving : Saving)
    (hrun : Saving.run? tree (before ++ saving :: later) = some after)
    (hlast : ∀ other ∈ later, other.path ≠ saving.path)
    (hversion : saving.settings.version = currentVersion) :
    load after saving.path =
      if ∃ other ∈ later, other.temporary = saving.path then .error .inaccessible
      else .ok saving.settings := by
  rw [run?_append, Option.bind_eq_some_iff] at hrun
  obtain ⟨between, -, hrun⟩ := hrun
  obtain ⟨saved, hrest, hread, -, -⟩ := exists_of_run?_cons hrun
  split
  · next htemporary => exact load_of_ne_file (ne_file_of_temporary hrest hlast htemporary)
  · next htemporary =>
    refine load_of_read (read_of_run? hrest hread hlast ?_) hversion
    exact fun other hother heq => htemporary ⟨other, hother, heq⟩

/-- Settings without limits. -/
def plainSettings : Settings := ofCalendar (.utc .mon)

def limitedSettings : Settings where
  version := currentVersion
  calendar := { weekStart := .sun, offsetMinutes := -330 }
  search := { includeArchived := true, maxResults := some 20 }

/-- Settings that are saved again, and then others beside them under another name or elsewhere, are
loaded as they were saved last. -/
theorem load_run?_twice :
    ∃ after,
      Saving.run? .root ([⟨["conf"], "engine.json", plainSettings⟩] ++
        ⟨["conf"], "engine.json", limitedSettings⟩ ::
          [⟨["conf"], "engine.toml", plainSettings⟩, ⟨[], "engine.json", plainSettings⟩]) =
        some after ∧
      load after ["conf", "engine.json"] = .ok limitedSettings := by
  refine Option.isSome_iff_exists.mp (?_ : Option.isSome _) |>.imp fun after hrun => ⟨hrun, ?_⟩
  · decide +kernel
  · have hload := load_run? [⟨["conf"], "engine.json", plainSettings⟩]
      [⟨["conf"], "engine.toml", plainSettings⟩, ⟨[], "engine.json", plainSettings⟩]
      ⟨["conf"], "engine.json", limitedSettings⟩ hrun (by decide +kernel) rfl
    rwa [if_neg (by decide +kernel)] at hload

/-- Settings in a file are lost when others are saved to a file beside it, for which it is the one
that they are written to before they are kept. -/
theorem load_run?_lost :
    ∃ after,
      Saving.run? .root [⟨[], "engine.tmp", plainSettings⟩, ⟨[], "engine.json", limitedSettings⟩] =
        some after ∧
      load after ["engine.tmp"] = .error .inaccessible := by
  refine Option.isSome_iff_exists.mp (?_ : Option.isSome _) |>.imp fun after hrun => ⟨hrun, ?_⟩
  · decide +kernel
  · obtain ⟨saved, hrest, -⟩ := exists_of_run?_cons hrun
    exact load_of_ne_file
      (ne_file_of_temporary hrest (by decide +kernel) (by decide +kernel))

end Curation.Settings
