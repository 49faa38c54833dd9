import Curation.Proofs.Json.RoundTrip
import Curation.Proofs.Store.FileName
import Curation.Proofs.Store.FileTree
import Curation.Proofs.Store.Memory
import Curation.Proofs.Text.Encoding

/-!
# Stores in files against stores in memory

A store in files answers every run of calls as a store in memory does, if both are new. The two may
name different texts as invalid when key and namespace both are, so failures are compared by kind.

* `StoreCall`: a call of an operation of a store.
* `FileStore.Refines`: a store in files has the documents of a store in memory.
* `FileStore.answers_eq`: the answers are the same.
-/

namespace Curation

/-- The kind of a failure. -/
inductive FailureKind where
  | invalidLogic
  | invalidPeriod
  | invalidConfig
  | invalidKey
  | undecodable
  | inaccessible
  deriving DecidableEq, Repr

def Failure.kind : Failure → FailureKind
  | invalidLogic _ => .invalidLogic
  | invalidPeriod _ => .invalidPeriod
  | invalidConfig _ => .invalidConfig
  | invalidKey _ => .invalidKey
  | undecodable => .undecodable
  | inaccessible => .inaccessible

/-- A call of an operation of a document store. -/
inductive StoreCall where
  | get (space key : String)
  | put (space key : String) (document : Json)
  | delete (space key : String)
  | keys (space : String)

/-- What a call answers if it does not fail. -/
inductive StoreAnswer where
  | found (document : Option Json)
  | kept
  | deleted (present : Bool)
  | listed (keys : List String)

namespace StoreCall

/-- The answer of a call, or the kind of its failure. -/
def outcome (f : α → StoreAnswer) (result : Except Failure α) : Except FailureKind StoreAnswer :=
  (result.map f).mapError Failure.kind

/-- What a call answers, and the store afterwards. -/
def perform [DocumentStore σ] (store : σ) :
    StoreCall → Except FailureKind StoreAnswer × σ
  | get space key => (outcome .found (DocumentStore.get store space key), store)
  | put space key document =>
    let result := DocumentStore.put store space key document
    (outcome (fun _ => .kept) result.1, result.2)
  | delete space key =>
    let result := DocumentStore.delete store space key
    (outcome .deleted result.1, result.2)
  | keys space => (outcome .listed (DocumentStore.keys store space), store)

/-- The answers of several calls, one after another. -/
def answers [DocumentStore σ] (store : σ) : List StoreCall → List (Except FailureKind StoreAnswer)
  | [] => []
  | call :: calls => (call.perform store).1 :: answers (call.perform store).2 calls

/-- A namespace and a key can be the names of a directory and, with an extension, of a file, if they
are valid. -/
def FitsNames (space key : String) : Prop :=
  (isKey space → space.utf8ByteSize ≤ 255) ∧ (isKey key → key.utf8ByteSize ≤ 250)

instance (space key : String) : Decidable (FitsNames space key) :=
  inferInstanceAs (Decidable (_ ∧ _))

/-- A call has to do with names that are short enough, and with a document that is read back from
its text. -/
def IsFit : StoreCall → Prop
  | get space key | delete space key => FitsNames space key
  | put space key document =>
    FitsNames space key ∧ Json.parse? document.pretty = some document
  | keys space => isKey space → space.utf8ByteSize ≤ 255

end StoreCall

namespace FileStore

/-- A store in files has the documents of a store in memory, each in its file, and no other files.
-/
structure Refines (files : FileStore) (memory : MemoryStore) : Prop where
  /-- No file stands where the root or the directory of a namespace has to be. -/
  way_ne_file : ∀ (path : Path) (content : ByteArray), path.length ≤ 1 →
    files.tree.nodes[path]? ≠ some (.file content)
  /-- The file of a key holds its document. -/
  node_fileName : ∀ space key : String, files.tree.nodes[[space, fileName key]]? =
    memory.documents[[space, key]]?.map fun document => .file (writeDocument document)
  /-- What stands in the directory of a namespace is the file of a key. -/
  exists_fileName : ∀ space name : String, [space, name] ∈ files.tree.nodes →
    ∃ key, name = fileName key
  /-- Documents are kept under keys. -/
  isKey_of_mem : ∀ space key : String, [space, key] ∈ memory.documents → isKey key
  /-- Documents are read back from their texts. -/
  readDocument_eq : ∀ (space key : String) (document : Json),
    memory.documents[[space, key]]? = some document →
    readDocument (writeDocument document) = .ok document

variable {files : FileStore} {memory : MemoryStore} {space key : String}

/-- A document is read back from its file if its text is parsed back. -/
theorem readDocument_writeDocument {document : Json}
    (h : Json.parse? document.pretty = some document) :
    readDocument (writeDocument document) = .ok document := by
  rw [readDocument, writeDocument, Text.fromUTF8?_toUTF8, Option.bind_some, h]

/-- A key in a namespace is not refused. -/
theorem checkAddress_of_isKey (hspace : isKey space) (hkey : isKey key) :
    checkAddress space key = .ok () := by
  rw [checkAddress, checkKey_of_isKey hspace, checkKey_of_isKey hkey]
  rfl

/-- Keeping a document under a key replaces its file. -/
theorem put_of_isKey (hspace : isKey space) (hkey : isKey key) (document : Json) :
    files.put space key document =
      ((files.tree.replaceFile [space] (fileName key) (writeDocument document)).1.mapError
          fun _ => .inaccessible,
        ⟨(files.tree.replaceFile [space] (fileName key) (writeDocument document)).2⟩) := by
  rw [put, checkAddress_of_isKey hspace hkey]
  generalize files.tree.replaceFile [space] (fileName key) (writeDocument document) = replaced
  obtain ⟨result, tree⟩ := replaced
  cases result <;> rfl

/-- Both kinds of stores refuse a pair of texts that are not both keys. -/
theorem exists_invalidKey (h : ¬ (isKey space ∧ isKey key)) :
    (∃ text, checkAddress space key = .error (.invalidKey text)) ∧
      ∃ text, MemoryStore.path space key = .error (.invalidKey text) := by
  refine ⟨?_, MemoryStore.path_of_not_isKey h⟩
  rw [checkAddress]
  by_cases hkey : isKey key
  · have hspace : ¬ isKey space := fun hspace => h ⟨hspace, hkey⟩
    rw [checkKey_of_isKey hkey, checkKey_of_not_isKey hspace]
    exact ⟨space, rfl⟩
  · rw [checkKey_of_not_isKey hkey]
    exact ⟨key, rfl⟩

/-- The path of a document is short if its key leaves room for the extension. -/
theorem isShort_path (hspace : space.utf8ByteSize ≤ 255) (hkey : key.utf8ByteSize ≤ 250) :
    Path.IsShort [space, fileName key] := by
  rw [Path.isShort_cons, Path.isShort_cons, utf8ByteSize_fileName, FileName.maxBytes]
  exact ⟨hspace, Nat.add_le_add_right hkey 5, Path.isShort_nil⟩

/-- The keys of the documents in the directory of a namespace, as they come. -/
def keysOf (tree : FileTree) (space : String) : List String :=
  (tree.nodes.keys.filterMap (FileTree.childName? [space])).filterMap keyOf?

/-- The names in a directory tell the keys whose files stand there. -/
theorem mem_keysOf {tree : FileTree} :
    key ∈ keysOf tree space ↔ key ≠ "" ∧ [space, fileName key] ∈ tree.nodes := by
  simp only [keysOf, List.mem_filterMap, FileTree.childName?_eq_some_iff, keyOf?_eq_some_iff,
    Std.ExtTreeMap.mem_keys]
  constructor
  · rintro ⟨_, ⟨_, hnode, rfl⟩, rfl, hkey⟩
    exact ⟨hkey, hnode⟩
  · rintro ⟨hkey, hnode⟩
    exact ⟨fileName key, ⟨_, hnode, rfl⟩, rfl, hkey⟩

/-- The names in a directory tell each key once. -/
theorem nodup_keysOf (tree : FileTree) (space : String) : (keysOf tree space).Nodup := by
  rw [keysOf, List.filterMap_filterMap, List.Nodup, List.pairwise_filterMap]
  refine tree.nodes.nodup_keys.imp fun hne key hkey other hother heq => hne ?_
  subst heq
  simp only [Option.bind_eq_some_iff, FileTree.childName?_eq_some_iff, keyOf?_eq_some_iff]
    at hkey hother
  obtain ⟨_, rfl, rfl, -⟩ := hkey
  obtain ⟨_, rfl, rfl, -⟩ := hother
  rfl

/-- The keys of a namespace are told if no file is in the way of its directory, whether or not the
directory is there. -/
theorem keys_of_way (hspace : isKey space) (hshort : Path.IsShort [space])
    (hway : ∀ way content, way <+: [space] → files.tree.nodes[way]? ≠ some (.file content)) :
    files.keys space = .ok (keysOf files.tree space).mergeSort := by
  rw [keys, checkKey_of_isKey hspace, FileTree.list]
  cases hnode : files.tree.nodes[[space]]? with
  | none =>
    -- a document would stand in the directory
    have hnone : keysOf files.tree space = [] := by
      refine List.eq_nil_iff_forall_not_mem.mpr fun key hkey => ?_
      have hdirectory := files.tree.isClosed [space] _ (mem_keysOf.mp hkey).2
      rw [hnode] at hdirectory
      cases hdirectory
    rw [FileTree.find_eq_notFound hnode hshort hway, hnone, List.mergeSort_nil]
    rfl
  | some node =>
    cases node with
    | file content => exact absurd hnode (hway [space] content (List.prefix_refl _))
    | directory =>
      rw [FileTree.find_eq_ok_iff.mpr ⟨hnode, hshort⟩]
      rfl

/-- Keys in any order are put into the same order. -/
theorem mergeSort_congr {names others : List String} (h : names.Perm others) :
    names.mergeSort = others.mergeSort := by
  have hsorted : ∀ names : List String, names.mergeSort.Pairwise (· ≤ ·) := fun names =>
    (List.pairwise_mergeSort (fun a b c => by simpa using String.le_trans)
      (fun a b => by simpa using String.le_total a b) names).imp of_decide_eq_true
  have hperm : names.mergeSort.Perm others.mergeSort :=
    ((List.mergeSort_perm names _).trans h).trans (List.mergeSort_perm others _).symm
  exact hperm.eq_of_pairwise (fun key other _ _ => String.le_antisymm) (hsorted names)
    (hsorted others)

/-- Keys in any order are put into ascending order. -/
theorem mergeSort_eq {names keys : List String} (hnames : names.Nodup)
    (hkeys : keys.Pairwise (· < ·)) (hmem : ∀ key, key ∈ names ↔ key ∈ keys) :
    names.mergeSort = keys := by
  have hnodup : keys.Nodup := hkeys.imp fun hlt => Std.ne_of_lt hlt
  rw [mergeSort_congr ((List.perm_ext_iff_of_nodup hnames hnodup).mpr hmem)]
  exact List.mergeSort_of_pairwise (hkeys.imp fun hlt => decide_eq_true (Std.le_of_lt hlt))

namespace Refines

variable (h : Refines files memory)

include h

/-- Nothing is found where no document is kept. -/
theorem find_of_none (hshort : Path.IsShort [space, fileName key])
    (hnone : memory.documents[[space, key]]? = none) :
    files.tree.find [space, fileName key] = .error .notFound := by
  have hnode := h.node_fileName space key
  rw [hnone, Option.map_none] at hnode
  refine FileTree.find_eq_notFound hnode hshort fun way content hway => ?_
  -- no file is in the way above the document, and none is at its place
  by_cases hlength : way.length ≤ 1
  · exact h.way_ne_file way content hlength
  · have heq : way = [space, fileName key] :=
      hway.eq_of_length_le (Nat.lt_of_not_le hlength)
    rw [heq, hnode]
    nofun

/-- The document of a key is read in its file. -/
theorem read_of_some (hshort : Path.IsShort [space, fileName key]) {document : Json}
    (hsome : memory.documents[[space, key]]? = some document) :
    files.tree.read [space, fileName key] = .ok (writeDocument document) := by
  rw [FileTree.read_eq_ok_iff, h.node_fileName, hsome]
  exact ⟨rfl, hshort⟩

/-- Both stores find the same document under a key. -/
theorem get_eq (hspace : isKey space) (hkey : isKey key)
    (hshort : Path.IsShort [space, fileName key]) :
    files.get space key = .ok memory.documents[[space, key]]? := by
  rw [get, checkAddress_of_isKey hspace hkey]
  -- the file is missing exactly if there is no document
  cases hdocument : memory.documents[[space, key]]? with
  | none =>
    have hread : files.tree.read [space, fileName key] = .error .notFound := by
      rw [FileTree.read, h.find_of_none hshort hdocument]
    simp only [bind, Except.bind, hread]
  | some document =>
    simp only [bind, Except.bind, h.read_of_some hshort hdocument,
      h.readDocument_eq space key document hdocument]
    rfl

/-- No directory stands in the directory of a namespace. -/
theorem ne_directory (name : String) : files.tree.nodes[[space, name]]? ≠ some .directory := by
  intro hdirectory
  obtain ⟨key, rfl⟩ := h.exists_fileName space name (FileTree.mem_nodes_of_getElem? hdirectory)
  rw [h.node_fileName, Option.map_eq_some_iff] at hdirectory
  obtain ⟨document, -, hnode⟩ := hdirectory
  cases hnode

/-- A file can be replaced in the directory of a namespace, which is made if it is missing. -/
theorem replaceFile_eq_ok (hkey : isKey key) (hshort : Path.IsShort [space, fileName key])
    (content : ByteArray) :
    (files.tree.replaceFile [space] (fileName key) content).1 = .ok () := by
  have hname : (fileName key).utf8ByteSize ≤ FileName.maxBytes := hshort _ (by simp)
  have hspace : space.utf8ByteSize ≤ FileName.maxBytes := hshort _ (by simp)
  -- the temporary name is shorter than the name of the file
  have htemporary : (FileName.withExtension (fileName key) "tmp").utf8ByteSize ≤
      FileName.maxBytes := by
    rw [utf8ByteSize_fileName] at hname
    rw [utf8ByteSize_temporary (ne_empty_of_isKey hkey)]
    omega
  refine FileTree.replaceFile_eq_ok_iff_of_nodes.mpr
    ⟨fun way content hway => h.way_ne_file way content hway.length_le, h.ne_directory _,
      h.ne_directory _, ?_, hshort⟩
  exact Path.isShort_cons.mpr ⟨hspace, Path.isShort_cons.mpr ⟨htemporary, Path.isShort_nil⟩⟩

/-- A document is kept under a key if the path of its file is short. -/
theorem put_eq (hspace : isKey space) (hkey : isKey key)
    (hshort : Path.IsShort [space, fileName key]) (document : Json) :
    files.put space key document = (.ok (),
      ⟨(files.tree.replaceFile [space] (fileName key) (writeDocument document)).2⟩) := by
  rw [put_of_isKey hspace hkey, h.replaceFile_eq_ok hkey hshort (writeDocument document)]
  rfl

/-- After a document is put, both stores have it. -/
theorem refines_put (hspace : isKey space) (hkey : isKey key)
    (hshort : Path.IsShort [space, fileName key]) {document : Json}
    (hread : readDocument (writeDocument document) = .ok document) :
    Refines (files.put space key document).2 (memory.put space key document).2 := by
  -- the temporary file is that of no key, so that no other document is lost
  have hne := temporary_ne_fileName (ne_empty_of_isKey hkey)
  have hnodes := FileTree.getElem?_replaceFile
    (h.replaceFile_eq_ok hkey hshort (writeDocument document))
  rw [h.put_eq hspace hkey hshort, MemoryStore.put_of_isKey hspace hkey]
  constructor
  case way_ne_file =>
    intro path content hlength
    rw [hnodes, if_neg, if_neg]
    · split
      · nofun
      · exact h.way_ne_file path content hlength
    · rintro rfl
      simp [FileTree.temporary] at hlength
    · rintro rfl
      simp at hlength
  case node_fileName =>
    intro other name
    rw [hnodes, Std.ExtTreeMap.getElem?_insert]
    simp only [Std.LawfulEqCmp.compare_eq_iff_eq]
    by_cases heq : [space, key] = [other, name]
    · cases heq
      rw [if_pos rfl, if_pos (List.singleton_append ..)]
      rfl
    · have hfile : [space] ++ [fileName key] ≠ [other, fileName name] := by
        simpa [fileName_inj] using heq
      rw [if_neg hfile, if_neg (by simp [FileTree.temporary, hne]), if_neg (by simp), if_neg heq]
      exact h.node_fileName other name
  case exists_fileName =>
    intro other name hmem
    rw [Std.ExtTreeMap.mem_iff_isSome_getElem?, hnodes] at hmem
    split at hmem
    · next heq =>
      cases heq
      exact ⟨key, rfl⟩
    · rw [if_neg (c := _ <+: _) (by simp)] at hmem
      split at hmem
      · cases hmem
      · exact h.exists_fileName other name (Std.ExtTreeMap.mem_iff_isSome_getElem?.mpr hmem)
  case isKey_of_mem =>
    intro other name hmem
    rw [Std.ExtTreeMap.mem_insert, Std.LawfulEqCmp.compare_eq_iff_eq] at hmem
    rcases hmem with heq | hmem
    · cases heq
      exact hkey
    · exact h.isKey_of_mem other name hmem
  case readDocument_eq =>
    intro other name kept hkept
    rw [Std.ExtTreeMap.getElem?_insert] at hkept
    split at hkept
    · cases hkept
      exact hread
    · exact h.readDocument_eq other name kept hkept

/-- After the file of a key is gone, so is its document. -/
theorem refines_erase {after : FileTree}
    (hafter : ∀ other, after.nodes[other]? =
      if [space, fileName key] = other then none else files.tree.nodes[other]?) :
    Refines ⟨after⟩ ⟨memory.documents.erase [space, key]⟩ := by
  constructor
  -- without the one file, what is told of the others holds as before
  case way_ne_file =>
    intro path content hlength
    rw [hafter]
    split
    · nofun
    · exact h.way_ne_file path content hlength
  case node_fileName =>
    intro other name
    rw [hafter, Std.ExtTreeMap.getElem?_erase]
    simp only [Std.LawfulEqCmp.compare_eq_iff_eq, List.cons.injEq, fileName_inj]
    split
    · rfl
    · exact h.node_fileName other name
  case exists_fileName =>
    intro other name hmem
    rw [Std.ExtTreeMap.mem_iff_isSome_getElem?, hafter] at hmem
    split at hmem
    · cases hmem
    · exact h.exists_fileName other name (Std.ExtTreeMap.mem_iff_isSome_getElem?.mpr hmem)
  case isKey_of_mem =>
    intro other name hmem
    exact h.isKey_of_mem other name (Std.ExtTreeMap.mem_of_mem_erase hmem)
  case readDocument_eq =>
    intro other name kept hkept
    rw [Std.ExtTreeMap.getElem?_erase] at hkept
    split at hkept
    · cases hkept
    · exact h.readDocument_eq other name kept hkept

/-- Both stores remove the same documents. -/
theorem refines_delete (hspace : isKey space) (hkey : isKey key)
    (hshort : Path.IsShort [space, fileName key]) :
    (files.delete space key).1 = (memory.delete space key).1 ∧
      Refines (files.delete space key).2 (memory.delete space key).2 := by
  rw [delete, checkAddress_of_isKey hspace hkey, MemoryStore.delete_of_isKey hspace hkey]
  cases hdocument : memory.documents[[space, key]]? with
  | none =>
    -- there is no file to be removed, and no document either
    have hremove : files.tree.remove [space, fileName key] = (.error .notFound, files.tree) := by
      rw [FileTree.remove, FileTree.read, h.find_of_none hshort hdocument]
    simp only [hremove]
    refine ⟨rfl, h.refines_erase fun other => ?_⟩
    split
    · next heq => rw [← heq, h.node_fileName, hdocument, Option.map_none]
    · rfl
  | some document =>
    have hread := h.read_of_some hshort hdocument
    simp only [FileTree.remove_of_read hread]
    exact ⟨rfl, h.refines_erase (FileTree.getElem?_erase (FileTree.ne_directory_of_read hread))⟩

/-- The names of the files of a namespace tell the keys of its documents. -/
theorem mem_keysOf_iff : key ∈ keysOf files.tree space ↔ [space, key] ∈ memory.documents := by
  have hmem : [space, fileName key] ∈ files.tree.nodes ↔ [space, key] ∈ memory.documents := by
    rw [Std.ExtTreeMap.mem_iff_isSome_getElem?, h.node_fileName, Option.isSome_map,
      Std.ExtTreeMap.mem_iff_isSome_getElem?]
  rw [mem_keysOf, hmem]
  exact and_iff_right_of_imp fun hdocument => ne_empty_of_isKey (h.isKey_of_mem space key hdocument)

/-- Both stores tell the same keys. -/
theorem keys_eq (hspace : isKey space) (hshort : Path.IsShort [space]) :
    files.keys space = memory.keys space := by
  rw [keys_of_way hspace hshort fun way content hway => h.way_ne_file way content hway.length_le,
    MemoryStore.keys_of_isKey hspace]
  exact congrArg _ (mergeSort_eq (nodup_keysOf files.tree space) MemoryStore.pairwise_keysOf
    fun key => h.mem_keysOf_iff.trans MemoryStore.mem_keysOf.symm)

/-- Both stores answer a call in the same way, and have the same documents afterwards. -/
theorem perform {call : StoreCall} (hfit : call.IsFit) :
    (call.perform files).1 = (call.perform memory).1 ∧
      Refines (call.perform files).2 (call.perform memory).2 := by
  cases call with
  | get space key =>
    refine ⟨?_, h⟩
    show StoreCall.outcome _ (files.get space key) = StoreCall.outcome _ (memory.get space key)
    by_cases hkeys : isKey space ∧ isKey key
    · rw [h.get_eq hkeys.1 hkeys.2 (isShort_path (hfit.1 hkeys.1) (hfit.2 hkeys.2)),
        MemoryStore.get_of_isKey hkeys.1 hkeys.2]
    -- both stores refuse the address, perhaps with different texts
    · obtain ⟨⟨text, hfiles⟩, other, hmemory⟩ := exists_invalidKey hkeys
      rw [get, MemoryStore.get, hfiles, hmemory]
      rfl
  | put space key document =>
    show StoreCall.outcome _ (files.put space key document).1 =
        StoreCall.outcome _ (memory.put space key document).1 ∧
      Refines (files.put space key document).2 (memory.put space key document).2
    by_cases hkeys : isKey space ∧ isKey key
    · have hshort := isShort_path (hfit.1.1 hkeys.1) (hfit.1.2 hkeys.2)
      refine ⟨?_, h.refines_put hkeys.1 hkeys.2 hshort (readDocument_writeDocument hfit.2)⟩
      rw [h.put_eq hkeys.1 hkeys.2 hshort, MemoryStore.put_of_isKey hkeys.1 hkeys.2]
    · obtain ⟨⟨text, hfiles⟩, other, hmemory⟩ := exists_invalidKey hkeys
      rw [put, MemoryStore.put, hfiles, hmemory]
      exact ⟨rfl, h⟩
  | delete space key =>
    show StoreCall.outcome _ (files.delete space key).1 =
        StoreCall.outcome _ (memory.delete space key).1 ∧
      Refines (files.delete space key).2 (memory.delete space key).2
    by_cases hkeys : isKey space ∧ isKey key
    · obtain ⟨hanswer, hafter⟩ := h.refines_delete hkeys.1 hkeys.2
        (isShort_path (hfit.1 hkeys.1) (hfit.2 hkeys.2))
      exact ⟨congrArg (StoreCall.outcome _) hanswer, hafter⟩
    · obtain ⟨⟨text, hfiles⟩, other, hmemory⟩ := exists_invalidKey hkeys
      rw [delete, MemoryStore.delete, hfiles, hmemory]
      exact ⟨rfl, h⟩
  | keys space =>
    refine ⟨?_, h⟩
    show StoreCall.outcome _ (files.keys space) = StoreCall.outcome _ (memory.keys space)
    by_cases hspace : isKey space
    · rw [h.keys_eq hspace (Path.isShort_cons.mpr ⟨hfit hspace, Path.isShort_nil⟩)]
    · rw [keys, MemoryStore.keys, checkKey_of_not_isKey hspace]
      rfl

/-- A store in files answers every run of calls as the store in memory does whose documents it has.
-/
theorem answers {calls : List StoreCall} (hfit : ∀ call ∈ calls, call.IsFit) :
    StoreCall.answers files calls = StoreCall.answers memory calls := by
  induction calls generalizing files memory with
  | nil => rfl
  | cons call calls ih =>
    obtain ⟨hanswer, hafter⟩ := h.perform (hfit call List.mem_cons_self)
    rw [StoreCall.answers, StoreCall.answers, hanswer,
      ih hafter fun later hlater => hfit later (List.mem_cons_of_mem call hlater)]

end Refines

/-- A store in files without any file has the documents of the new store in memory. -/
theorem refines_new {tree : FileTree} (htree : tree = .empty ∨ tree = .root) :
    Refines ⟨tree⟩ .empty := by
  -- at most the root stands in a new tree, and it is a directory
  have hnodes : ∀ (path : Path) (node : Node), tree.nodes[path]? = some node →
      path = [] ∧ node = .directory := by
    intro path node hnode
    rcases htree with rfl | rfl
    · simp [FileTree.empty] at hnode
    · rw [FileTree.root, Std.ExtTreeMap.getElem?_insert] at hnode
      split at hnode
      · next hroot =>
        cases hnode
        exact ⟨(Std.LawfulEqCmp.compare_eq_iff_eq.mp hroot).symm, rfl⟩
      · simp at hnode
  constructor
  case way_ne_file =>
    intro path content _ hnode
    cases (hnodes path _ hnode).2
  case node_fileName =>
    intro space key
    cases hnode : tree.nodes[[space, fileName key]]? with
    | none => simp [MemoryStore.empty]
    | some node => cases (hnodes _ _ hnode).1
  case exists_fileName =>
    intro space name hmem
    rw [Std.ExtTreeMap.mem_iff_isSome_getElem?, Option.isSome_iff_exists] at hmem
    obtain ⟨node, hnode⟩ := hmem
    cases (hnodes _ _ hnode).1
  case isKey_of_mem =>
    intro space key hmem
    simp [MemoryStore.empty] at hmem
  case readDocument_eq =>
    intro space key document hdocument
    simp [MemoryStore.empty] at hdocument

/-- Every run of calls is answered by a new store in files as by a new store in memory. The files
are below a directory that is empty or missing, and nothing else changes them. -/
theorem answers_eq {tree : FileTree} (htree : tree = .empty ∨ tree = .root)
    (calls : List StoreCall) (hfit : ∀ call ∈ calls, call.IsFit) :
    StoreCall.answers (FileStore.mk tree) calls = StoreCall.answers MemoryStore.empty calls :=
  (refines_new htree).answers hfit

/-- Calls under keys with points of their own, and under one that is invalid. -/
def pointedCalls : List StoreCall :=
  [.put "rules" "a" (.object [("logic", .string "OR"), ("rules", .array [])]),
    .put "rules" "a.tmp" (.array [.integer 1, .null]), .put "rules" "..x" (.string "two\nlines"),
    .put "rules" "a" .null, .put "rules" "../a" .null, .keys "rules", .delete "rules" "a",
    .get "rules" "a.tmp", .keys "sets"]

/-- Both stores give the same answers where keys have points in them or are refused. -/
theorem answers_eq_pointed :
    (FileTree.root = .empty ∨ FileTree.root = .root) ∧ (∀ call ∈ pointedCalls, call.IsFit) ∧
      StoreCall.answers (FileStore.mk .root) pointedCalls =
        StoreCall.answers MemoryStore.empty pointedCalls := by
  -- the names are short, and each document is read back from its text
  have hfit : ∀ call ∈ pointedCalls, call.IsFit := by
    simp only [pointedCalls, List.forall_mem_cons]
    exact ⟨⟨by decide +kernel, Json.parse?_pretty rfl rfl rfl⟩,
      ⟨by decide +kernel, Json.parse?_pretty rfl rfl rfl⟩,
      ⟨by decide +kernel, Json.parse?_pretty rfl rfl rfl⟩,
      ⟨by decide +kernel, Json.parse?_pretty rfl rfl rfl⟩,
      ⟨by decide +kernel, Json.parse?_pretty rfl rfl rfl⟩,
      fun _ => by decide +kernel,
      (by decide +kernel : StoreCall.FitsNames "rules" "a"),
      (by decide +kernel : StoreCall.FitsNames "rules" "a.tmp"),
      fun _ => by decide +kernel, nofun⟩
  exact ⟨Or.inr rfl, hfit, answers_eq (Or.inr rfl) pointedCalls hfit⟩

end FileStore

end Curation
