import Curation.Proofs.Store.Refinement

/-!
# Puts that fail

A put that fails may have changed the tree before: it may have made directories on the way, and it
may have written the file that is moved to the document's place at the end. No operation looks at
that file, and an empty directory is told from a missing one by none. So a store answers every later
call as if there had been no such put, whatever directories and files stand below its directory. No
two names lead to one file there: were the file that is moved linked to a document, writing the one
would change the other.

* `FileTree.ReplaceLeaves`: what a file that is not replaced after all leaves behind.
* `FileTree.TellsSame`: trees that a store does not tell apart.
* `FileStore.put_of_error`: what a put that fails leaves behind, and what is answered then.
-/

namespace Curation

namespace FileTree

variable {tree other left : FileTree} {directory way : Path} {space key name : String}

/-! ## What is left behind -/

/-- What stands in a tree if the replacement of a file stops at one of its steps: directories on the
way may have been made, and some content may have been written beside the file. -/
inductive ReplaceLeaves (tree : FileTree) (directory : Path) (name : String) : FileTree → Prop
  | untouched : ReplaceLeaves tree directory name tree
  | made {left made : FileTree} {way : Path} (h : ReplaceLeaves tree directory name left)
      (hway : way <+: directory) (hmade : left.ensureDirectory way = .ok made) :
      ReplaceLeaves tree directory name made
  | written {left : FileTree} (h : ReplaceLeaves tree directory name left)
      (hplace : left.checkFilePlace (temporary directory name) = .ok ()) (content : ByteArray) :
      ReplaceLeaves tree directory name (left.set (temporary directory name) (.file content))

/-- Making the directories on the way, as far as it goes, leaves only what the replacement of a file
does. -/
theorem ReplaceLeaves.makeDirectoriesFrom {here : Path} {names : List String}
    (h : ReplaceLeaves tree directory name left) (hpath : here ++ names = directory) :
    ReplaceLeaves tree directory name (left.makeDirectoriesFrom here names).2 := by
  induction names generalizing left here with
  | nil =>
    rw [FileTree.makeDirectoriesFrom]
    cases hmade : left.ensureDirectory here with
    | error => exact h
    | ok made => exact h.made ⟨[], hpath⟩ hmade
  | cons next names ih =>
    rw [FileTree.makeDirectoriesFrom]
    cases hmade : left.ensureDirectory here with
    | error => exact h
    | ok made =>
      -- the next directory starts from a tree in which this one was made
      have hleft := h.made ⟨_, hpath⟩ hmade
      rw [List.append_cons] at hpath
      simp only
      split
      · exact hleft
      · exact ih hleft hpath

/-- A file that cannot be moved stays where it is. -/
theorem rename_of_error {source target : Path} {error : FileError}
    (h : (tree.rename source target).1 = .error error) : (tree.rename source target).2 = tree := by
  rw [rename] at h ⊢
  split at h
  · cases h
  · rfl
  · rfl

/-- A replacement that fails has stopped at one of its steps. -/
theorem replaceLeaves_of_error {content : ByteArray} {error : FileError}
    (h : (tree.replaceFile directory name content).1 = .error error) :
    ReplaceLeaves tree directory name (tree.replaceFile directory name content).2 := by
  have hleft : ReplaceLeaves tree directory name (tree.makeDirectories directory).2 :=
    ReplaceLeaves.untouched.makeDirectoriesFrom (List.nil_append _)
  rw [replaceFile] at h ⊢
  generalize tree.makeDirectories directory = result at h hleft ⊢
  obtain ⟨result, made⟩ := result
  cases result with
  | error => exact hleft
  | ok =>
    cases hplace : made.checkFilePlace (temporary directory name) with
    | error error =>
      rw [temporary] at hplace
      simpa only [write, hplace] using hleft
    | ok =>
      -- the file is written, so it is the move that fails
      have hwritten := hleft.written hplace content
      have hwrite := write_of_checkFilePlace hplace content
      rw [temporary] at hwrite hwritten
      simp only [hwrite] at h ⊢
      rwa [rename_of_error h]

/-! ## Trees that a store does not tell apart -/

/-- Two trees have the same files in place of the directories of a store, the same documents, and
directories at the same places inside the directories of namespaces. -/
structure TellsSame (tree other : FileTree) : Prop where
  /-- The same files stand at the root and at the directories of namespaces. -/
  file : ∀ (path : Path) (content : ByteArray), path.length ≤ 1 →
    (tree.nodes[path]? = some (.file content) ↔ other.nodes[path]? = some (.file content))
  /-- The same stands at the file of each key. -/
  document : ∀ space key : String, key ≠ "" →
    tree.nodes[[space, FileStore.fileName key]]? = other.nodes[[space, FileStore.fileName key]]?
  /-- Directories stand at the same places. -/
  directory : ∀ space name : String,
    tree.nodes[[space, name]]? = some .directory ↔ other.nodes[[space, name]]? = some .directory

theorem TellsSame.refl (tree : FileTree) : tree.TellsSame tree :=
  ⟨fun _ _ _ => Iff.rfl, fun _ _ _ => rfl, fun _ _ => Iff.rfl⟩

theorem TellsSame.symm (h : tree.TellsSame other) : other.TellsSame tree where
  file path content hlength := (h.file path content hlength).symm
  document space key hkey := (h.document space key hkey).symm
  directory space name := (h.directory space name).symm

theorem TellsSame.trans (h : tree.TellsSame left) (h' : left.TellsSame other) :
    tree.TellsSame other where
  file path content hlength := (h.file path content hlength).trans (h'.file path content hlength)
  document space key hkey := (h.document space key hkey).trans (h'.document space key hkey)
  directory space name := (h.directory space name).trans (h'.directory space name)

/-- A directory that is made on the way is not told of. -/
theorem tellsSame_ensureDirectory {made : FileTree} (h : tree.ensureDirectory way = .ok made)
    (hway : way.length ≤ 1) : made.TellsSame tree := by
  rw [ensureDirectory] at h
  split at h
  · cases h
    exact .refl tree
  · cases h
  · next hnone =>
    cases h
    by_cases hplace : tree.CanHold way .directory
    · have hnodes := getElem?_set hplace
      -- the directory that is made lies above all documents
      have hbelow : ∀ space name : String, way ≠ [space, name] := by
        rintro space name rfl
        exact absurd hway (by simp)
      constructor
      case file =>
        intro path content _
        rw [hnodes]
        split
        · next heq => simp [← heq, hnone]
        · exact Iff.rfl
      case document =>
        intro space key _
        rw [hnodes, if_neg (hbelow space _)]
      case directory =>
        intro space name
        rw [hnodes, if_neg (hbelow space name)]
    · rw [set, dif_neg hplace]
      exact .refl tree

/-- The file that a document is first written to is not told of. -/
theorem tellsSame_set_temporary (hkey : key ≠ "")
    (h : tree.checkFilePlace (temporary [space] (FileStore.fileName key)) = .ok ())
    (content : ByteArray) :
    (tree.set (temporary [space] (FileStore.fileName key)) (.file content)).TellsSame tree := by
  have hne := FileStore.temporary_ne_fileName hkey
  rw [temporary] at h ⊢
  generalize FileName.withExtension (FileStore.fileName key) "tmp" = beside at h hne ⊢
  have hnodes := getElem?_set_file h content
  constructor
  case file =>
    intro path content hlength
    rw [hnodes, if_neg]
    rintro rfl
    exact absurd hlength (by simp)
  case document =>
    -- the name of the file has another extension than that of a document
    intro space' key' _
    rw [hnodes, if_neg (by simp [hne key'])]
  case directory =>
    intro space' name
    rw [hnodes]
    split
    · next heq =>
      -- no directory was in the place of the file either
      have hplace := (checkFilePlace_eq_ok_iff.mp h).2.1
      rw [heq] at hplace
      simp [hplace]
    · exact Iff.rfl

/-- What a replacement leaves behind is not told of. -/
theorem ReplaceLeaves.tellsSame
    (h : ReplaceLeaves tree [space] (FileStore.fileName key) left) (hkey : key ≠ "") :
    left.TellsSame tree := by
  induction h with
  | untouched => exact .refl tree
  | made _ hway hmade ih => exact (tellsSame_ensureDirectory hmade hway.length_le).trans ih
  | written _ hplace content ih => exact (tellsSame_set_temporary hkey hplace content).trans ih

namespace TellsSame

variable (h : tree.TellsSame other)

include h

/-- A file is in the way of a directory in both trees or in neither. -/
theorem way_ne_file_iff (space : String) :
    (∀ way content, way <+: [space] → tree.nodes[way]? ≠ some (.file content)) ↔
      ∀ way content, way <+: [space] → other.nodes[way]? ≠ some (.file content) :=
  forall₃_congr fun way content hway => not_congr (h.file way content hway.length_le)

/-- The same is read from the file of a key. -/
theorem read_eq (hkey : key ≠ "") (hshort : Path.IsShort [space, FileStore.fileName key]) :
    tree.read [space, FileStore.fileName key] = other.read [space, FileStore.fileName key] := by
  have hfind : tree.find [space, FileStore.fileName key] =
      other.find [space, FileStore.fileName key] := by
    refine find_congr hshort (fun way content hway hne => ?_) (h.document space key hkey)
    refine h.file way content (Nat.le_of_lt_succ (Nat.lt_of_le_of_ne hway.length_le fun heq => ?_))
    exact hne (hway.eq_of_length heq)
  rw [read, read, hfind]

/-- Trees stay the same if each path is kept in both of them or holds the same in both. -/
theorem change {after after' : FileTree}
    (hchange : ∀ path : Path, after.nodes[path]? = after'.nodes[path]? ∨
      after.nodes[path]? = tree.nodes[path]? ∧ after'.nodes[path]? = other.nodes[path]?) :
    after.TellsSame after' where
  file path content hlength := by
    -- where a path holds the same in both trees, they tell the same; elsewhere they did before
    rcases hchange path with heq | ⟨hkept, hkept'⟩
    · rw [heq]
    · rw [hkept, hkept']
      exact h.file path content hlength
  document space key hkey := by
    rcases hchange [space, FileStore.fileName key] with heq | ⟨hkept, hkept'⟩
    · exact heq
    · rw [hkept, hkept', h.document space key hkey]
  directory space name := by
    rcases hchange [space, name] with heq | ⟨hkept, hkept'⟩
    · rw [heq]
    · rw [hkept, hkept']
      exact h.directory space name

/-- The file of a key is replaced in both trees or in neither, though perhaps for other reasons. -/
theorem replaceFile_ok_or_error (space key : String) (content : ByteArray) :
    let replaced := tree.replaceFile [space] (FileStore.fileName key) content
    let replaced' := other.replaceFile [space] (FileStore.fileName key) content
    (replaced.1 = .ok () ∧ replaced'.1 = .ok ()) ∨
      ∃ error error', replaced.1 = .error error ∧ replaced'.1 = .error error' := by
  intro replaced replaced'
  -- success depends on where files and directories stand, which both trees tell alike
  have hiff : replaced.1 = .ok () ↔ replaced'.1 = .ok () := by
    rw [replaceFile_eq_ok_iff_of_nodes, replaceFile_eq_ok_iff_of_nodes, h.way_ne_file_iff,
      temporary, List.singleton_append, List.singleton_append]
    simp only [ne_eq, h.directory]
  cases hresult : replaced.1 with
  | ok => exact Or.inl ⟨rfl, hiff.mp hresult⟩
  | error error =>
    cases hresult' : replaced'.1 with
    | ok =>
      rw [hiff.mpr hresult'] at hresult
      cases hresult
    | error error' => exact Or.inr ⟨error, error', rfl, rfl⟩

/-- Replacing a file in both trees, or in neither, keeps them the same. -/
theorem replaceFile (hkey : key ≠ "") (content : ByteArray) :
    (tree.replaceFile [space] (FileStore.fileName key) content).2.TellsSame
      (other.replaceFile [space] (FileStore.fileName key) content).2 := by
  rcases h.replaceFile_ok_or_error space key content with
    ⟨hok, hok'⟩ | ⟨error, error', herror, herror'⟩
  · refine h.change fun path => ?_
    rw [getElem?_replaceFile hok, getElem?_replaceFile hok']
    split
    · exact Or.inl rfl
    split
    · exact Or.inl rfl
    split
    · exact Or.inl rfl
    · exact Or.inr ⟨rfl, rfl⟩
  · -- what is left behind in either tree is not told of
    have hleft := (replaceLeaves_of_error herror).tellsSame hkey
    exact (hleft.trans h).trans ((replaceLeaves_of_error herror').tellsSame hkey).symm

/-- Removing the file of a key from both trees, or from neither, keeps them the same. -/
theorem remove (hkey : key ≠ "") :
    (tree.remove [space, FileStore.fileName key]).2.TellsSame
      (other.remove [space, FileStore.fileName key]).2 := by
  -- the file that is removed stands in both trees or in neither
  have hok : ∀ content, tree.read [space, FileStore.fileName key] = .ok content ↔
      other.read [space, FileStore.fileName key] = .ok content := fun content => by
    rw [read_eq_ok_iff, read_eq_ok_iff, h.document space key hkey]
  cases hread : tree.read [space, FileStore.fileName key] with
  | ok content =>
    have hread' := (hok content).mp hread
    rw [remove_of_read hread, remove_of_read hread']
    refine h.change fun path => ?_
    rw [getElem?_erase (ne_directory_of_read hread), getElem?_erase (ne_directory_of_read hread')]
    split
    · exact Or.inl rfl
    · exact Or.inr ⟨rfl, rfl⟩
  | error error =>
    cases hread' : other.read [space, FileStore.fileName key] with
    | ok content =>
      rw [(hok content).mpr hread'] at hread
      cases hread
    | error error' =>
      rw [FileTree.remove, FileTree.remove, hread, hread']
      exact h

end TellsSame

end FileTree

/-- The store after several calls, one after another. -/
def StoreCall.after [DocumentStore σ] (store : σ) : List StoreCall → σ
  | [] => store
  | call :: calls => after (call.perform store).2 calls

namespace FileStore

variable {files other : FileStore} {space key : String}

/-! ## Answers of a store -/

/-- No keys are told if a file is in the way of the directory. -/
theorem keys_of_file (hspace : isKey space) (hshort : Path.IsShort [space]) {way : Path}
    {content : ByteArray} (hway : way <+: [space])
    (hfile : files.tree.nodes[way]? = some (.file content)) :
    files.keys space = .error .inaccessible := by
  rw [keys, checkKey_of_isKey hspace, FileTree.list]
  by_cases heq : way = [space]
  · rw [FileTree.find_eq_ok_iff.mpr ⟨heq ▸ hfile, hshort⟩]
    rfl
  · rw [FileTree.find_eq_notDirectory hway heq hfile hshort]
    rfl

/-- Deleting a document removes its file. -/
theorem delete_of_isKey (hspace : isKey space) (hkey : isKey key) :
    (files.delete space key).2 = { tree := (files.tree.remove [space, fileName key]).2 } := by
  rw [delete, checkAddress_of_isKey hspace hkey]
  dsimp only
  split <;> next hremoved => rw [hremoved]

/-- One store answers as another one. The names that it is asked for can be those of its directories
and files, if they are valid; a put may have any names. -/
structure AnswersAs (files other : FileStore) : Prop where
  get : ∀ space key : String, StoreCall.FitsNames space key →
    files.get space key = other.get space key
  put : ∀ (space key : String) (document : Json),
    (files.put space key document).1 = (other.put space key document).1
  delete : ∀ space key : String, StoreCall.FitsNames space key →
    (files.delete space key).1 = (other.delete space key).1
  keys : ∀ space : String, (isKey space → space.utf8ByteSize ≤ 255) →
    files.keys space = other.keys space

/-- Stores whose trees tell the same give the same answers. -/
theorem answersAs_of_tellsSame (h : files.tree.TellsSame other.tree) : files.AnswersAs other := by
  constructor
  case get =>
    intro space key hfit
    by_cases hkeys : isKey space ∧ isKey key
    · have hshort := isShort_path (hfit.1 hkeys.1) (hfit.2 hkeys.2)
      rw [get, get, h.read_eq (ne_empty_of_isKey hkeys.2) hshort]
    · obtain ⟨⟨text, haddress⟩, -⟩ := exists_invalidKey hkeys
      rw [get, get, haddress]
      rfl
  case put =>
    intro space key document
    by_cases hkeys : isKey space ∧ isKey key
    · rw [put_of_isKey hkeys.1 hkeys.2, put_of_isKey hkeys.1 hkeys.2]
      -- whatever the reason is that a file cannot be replaced, the answer is the same
      rcases h.replaceFile_ok_or_error space key (writeDocument document) with
        ⟨hok, hok'⟩ | ⟨error, error', herror, herror'⟩
      · rw [hok, hok']
      · rw [herror, herror']
        rfl
    · obtain ⟨⟨text, haddress⟩, -⟩ := exists_invalidKey hkeys
      rw [put, put, haddress]
  case delete =>
    intro space key hfit
    by_cases hkeys : isKey space ∧ isKey key
    · have hshort := isShort_path (hfit.1 hkeys.1) (hfit.2 hkeys.2)
      have hread := h.read_eq (ne_empty_of_isKey hkeys.2) hshort
      rw [delete, delete, checkAddress_of_isKey hkeys.1 hkeys.2, FileTree.remove, FileTree.remove,
        hread]
      cases other.tree.read [space, fileName key] with
      | ok => rfl
      | error error => cases error <;> rfl
    · obtain ⟨⟨text, haddress⟩, -⟩ := exists_invalidKey hkeys
      rw [delete, delete, haddress]
  case keys =>
    intro space hfit
    by_cases hspace : isKey space
    · have hshort : Path.IsShort [space] := Path.isShort_cons.mpr ⟨hfit hspace, Path.isShort_nil⟩
      by_cases hblocked : ∃ way content, way <+: [space] ∧
          files.tree.nodes[way]? = some (.file content)
      · obtain ⟨way, content, hway, hfile⟩ := hblocked
        rw [keys_of_file hspace hshort hway hfile, keys_of_file hspace hshort hway
          ((h.file way content hway.length_le).mp hfile)]
      · have hway : ∀ way content, way <+: [space] →
            files.tree.nodes[way]? ≠ some (.file content) :=
          fun way content hway hfile => hblocked ⟨way, content, hway, hfile⟩
        rw [keys_of_way hspace hshort hway,
          keys_of_way hspace hshort ((h.way_ne_file_iff space).mp hway)]
        -- the same keys are found, perhaps in another order
        refine congrArg _ (mergeSort_congr ?_)
        refine (List.perm_ext_iff_of_nodup (nodup_keysOf _ _) (nodup_keysOf _ _)).mpr fun key => ?_
        rw [mem_keysOf, mem_keysOf]
        refine and_congr_right fun hkey => ?_
        rw [Std.ExtTreeMap.mem_iff_isSome_getElem?, h.document space key hkey,
          ← Std.ExtTreeMap.mem_iff_isSome_getElem?]
    · rw [keys, keys, checkKey_of_not_isKey hspace]
      rfl

/-- A call keeps stores the same that are not told apart. -/
theorem tellsSame_perform (h : files.tree.TellsSame other.tree) (call : StoreCall) :
    (call.perform files).2.tree.TellsSame (call.perform other).2.tree := by
  cases call with
  | get | keys => exact h
  | put space key document =>
    show (files.put space key document).2.tree.TellsSame (other.put space key document).2.tree
    by_cases hkeys : isKey space ∧ isKey key
    · rw [put_of_isKey hkeys.1 hkeys.2, put_of_isKey hkeys.1 hkeys.2]
      exact h.replaceFile (ne_empty_of_isKey hkeys.2) _
    -- an address that is refused changes nothing
    · obtain ⟨⟨text, haddress⟩, -⟩ := exists_invalidKey hkeys
      rw [put, put, haddress]
      exact h
  | delete space key =>
    show (files.delete space key).2.tree.TellsSame (other.delete space key).2.tree
    by_cases hkeys : isKey space ∧ isKey key
    · rw [delete_of_isKey hkeys.1 hkeys.2, delete_of_isKey hkeys.1 hkeys.2]
      exact h.remove (ne_empty_of_isKey hkeys.2)
    · obtain ⟨⟨text, haddress⟩, -⟩ := exists_invalidKey hkeys
      rw [delete, delete, haddress]
      exact h

/-- Trees that tell the same do so after the same calls. -/
theorem tellsSame_after (h : files.tree.TellsSame other.tree) (calls : List StoreCall) :
    (StoreCall.after files calls).tree.TellsSame (StoreCall.after other calls).tree := by
  induction calls generalizing files other with
  | nil => exact h
  | cons call calls ih => exact ih (tellsSame_perform h call)

/-- What a put may leave behind that fails at one of its steps: if namespace and key are valid, what
the replacement of the file leaves. -/
def PutLeaves (files : FileStore) (space key : String) (left : FileStore) : Prop :=
  left = files ∨
    isKey space ∧ isKey key ∧ files.tree.ReplaceLeaves [space] (fileName key) left.tree

/-- A put that fails has refused the address or stopped at a step of the replacement. -/
theorem putLeaves_of_error {document : Json} {failure : Failure}
    (h : (files.put space key document).1 = .error failure) :
    files.PutLeaves space key (files.put space key document).2 := by
  by_cases hkeys : isKey space ∧ isKey key
  · rw [put_of_isKey hkeys.1 hkeys.2] at h ⊢
    refine Or.inr ⟨hkeys.1, hkeys.2, ?_⟩
    cases hresult : (files.tree.replaceFile [space] (fileName key) (writeDocument document)).1 with
    | ok =>
      rw [hresult] at h
      cases h
    -- only the replacement of the file can have failed
    | error error => exact FileTree.replaceLeaves_of_error hresult
  · obtain ⟨⟨text, haddress⟩, -⟩ := exists_invalidKey hkeys
    left
    rw [put, haddress]

/-- After a put that fails, a store answers as it would without the put, whatever calls come
between. This holds of all that the put may leave behind, at whichever step it stops and for any
reason, in every tree of directories and files without links. -/
theorem put_of_error {document : Json} {failure : Failure}
    (h : (files.put space key document).1 = .error failure) :
    files.PutLeaves space key (files.put space key document).2 ∧
      ∀ left, files.PutLeaves space key left → ∀ calls : List StoreCall,
        (StoreCall.after left calls).AnswersAs (StoreCall.after files calls) := by
  refine ⟨putLeaves_of_error h, fun left hleft calls => ?_⟩
  refine answersAs_of_tellsSame (tellsSame_after ?_ calls)
  rcases hleft with rfl | ⟨-, hkey, hleaves⟩
  · exact .refl _
  · exact hleaves.tellsSame (ne_empty_of_isKey hkey)

/-- A directory in the place of a document makes a put fail at its last step, which leaves a file
behind. -/
theorem put_of_error_directory :
    let files : FileStore :=
      ⟨(FileTree.root.set ["rules"] .directory).set ["rules", "a.json"] .directory⟩
    let left := (files.put "rules" "a" .null).2
    (files.put "rules" "a" .null).1 = .error .inaccessible ∧
      left.tree.nodes[["rules", "a.tmp"]]? = some (.file "null".toUTF8) ∧
      left.keys "rules" = files.keys "rules" := by
  intro files left
  have hfailed : (files.put "rules" "a" .null).1 = .error .inaccessible := by rfl
  have hfile : left.tree.nodes[["rules", "a.tmp"]]? = some (.file "null".toUTF8) := by
    decide +kernel
  -- what was left behind is one of the things that a put can leave
  obtain ⟨hleft, hanswers⟩ := put_of_error hfailed
  exact ⟨hfailed, hfile, (hanswers left hleft []).keys "rules" fun _ => by decide +kernel⟩

end FileStore

end Curation
