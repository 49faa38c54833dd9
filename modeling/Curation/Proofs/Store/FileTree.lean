import Curation.Store.FileTree

/-!
# Changes of file trees

What each operation on a file tree does, told by what stands where afterwards, and when it
succeeds.

* `FileTree.find_eq_ok_iff`: what is found at a path is what stands there.
* `FileTree.getElem?_makeDirectories`, `FileTree.getElem?_rename`: the tree after a change that
  succeeds.
* `FileTree.replaceFile_eq_ok_iff`, `FileTree.getElem?_replaceFile`: when a file can be replaced by
  way of another one, and the tree after that.
-/

namespace Curation

namespace Path

/-- No name on the path is too long. -/
def IsShort (path : Path) : Prop := ∀ name ∈ path, name.utf8ByteSize ≤ FileName.maxBytes

instance (path : Path) : Decidable path.IsShort :=
  inferInstanceAs (Decidable (∀ name ∈ path, _))

@[simp]
theorem isShort_nil : IsShort [] := nofun

@[simp]
theorem isShort_cons {name : String} {path : Path} :
    IsShort (name :: path) ↔ name.utf8ByteSize ≤ FileName.maxBytes ∧ path.IsShort :=
  List.forall_mem_cons

/-- A path is short if its parts are. -/
@[simp]
theorem isShort_append {path other : Path} :
    IsShort (path ++ other) ↔ path.IsShort ∧ other.IsShort :=
  List.forall_mem_append

end Path

namespace FileTree

variable {tree after : FileTree} {path here : Path} {names : List String} {node : Node}

theorem mem_nodes_of_getElem? (h : tree.nodes[path]? = some node) : path ∈ tree.nodes := by
  rw [Std.ExtTreeMap.mem_iff_isSome_getElem?, h]
  rfl

/-- What stands below a place stands in a directory there. -/
theorem directory_of_getElem? {name : String}
    (h : tree.nodes[here ++ name :: names]? = some node) :
    tree.nodes[here]? = some .directory := by
  induction names generalizing name node here with
  | nil => exact tree.isClosed here name (mem_nodes_of_getElem? h)
  | cons next names ih =>
    rw [List.append_cons] at h
    exact tree.isClosed here name (mem_nodes_of_getElem? (ih h))

/-- The search for a path goes on from a directory. -/
theorem findFrom_cons (h : tree.nodes[here]? = some .directory) (name : String) :
    tree.findFrom here (name :: names) =
      if FileName.maxBytes < name.utf8ByteSize then .error .nameTooLong
      else tree.findFrom (here ++ [name]) names := by
  rw [findFrom, h]

/-- What stands behind short names is found, and nothing behind one that is too long. -/
theorem findFrom_of_getElem? (h : tree.nodes[here ++ names]? = some node) :
    tree.findFrom here names =
      if Path.IsShort names then .ok node else .error .nameTooLong := by
  induction names generalizing here with
  | nil =>
    rw [List.append_nil] at h
    rw [findFrom, h, if_pos Path.isShort_nil]
  | cons name names ih =>
    -- the node stands below `here`, where a directory has to be
    rw [findFrom_cons (directory_of_getElem? h)]
    rw [List.append_cons] at h
    by_cases hname : name.utf8ByteSize ≤ FileName.maxBytes
    · rw [if_neg (Nat.not_lt.mpr hname), ih h]
      simp only [Path.isShort_cons, hname, true_and]
    · rw [if_pos (Nat.not_le.mp hname), if_neg fun hshort => hname (Path.isShort_cons.mp hshort).1]

/-- What is found stands there. -/
theorem getElem?_of_findFrom (h : tree.findFrom here names = .ok node) :
    tree.nodes[here ++ names]? = some node := by
  induction names generalizing here with
  | nil =>
    rw [findFrom] at h
    rw [List.append_nil]
    cases hnode : tree.nodes[here]? <;> simp_all
  | cons name names ih =>
    rw [List.append_cons]
    -- the search goes on below, so it passed a directory and a short name
    refine ih ?_
    rw [findFrom] at h
    split at h
    · cases h
    · cases h
    · split at h
      · cases h
      · exact h

/-- What is found at a path is what stands there, if no name on the way is too long. -/
theorem find_eq_ok_iff :
    tree.find path = .ok node ↔ tree.nodes[path]? = some node ∧ path.IsShort := by
  constructor
  · intro h
    have hnode : tree.nodes[path]? = some node := getElem?_of_findFrom h
    rw [find, findFrom_of_getElem? hnode] at h
    refine ⟨hnode, ?_⟩
    split at h
    · assumption
    · cases h
  · rintro ⟨hnode, hshort⟩
    rw [find, findFrom_of_getElem? hnode, if_pos hshort]

/-- Nothing stands at a path where nothing is found. -/
theorem getElem?_of_find_notFound (h : tree.find path = .error .notFound) :
    tree.nodes[path]? = none := by
  cases hnode : tree.nodes[path]? with
  | none => rfl
  | some node =>
    rw [find, findFrom_of_getElem? hnode] at h
    split at h <;> cases h

/-- Nothing is found where nothing stands, unless a file is in the way. -/
theorem findFrom_eq_notFound (hnone : tree.nodes[here ++ names]? = none)
    (hshort : Path.IsShort names)
    (hway : ∀ way content, way <+: names → tree.nodes[here ++ way]? ≠ some (.file content)) :
    tree.findFrom here names = .error .notFound := by
  induction names generalizing here with
  | nil =>
    rw [List.append_nil] at hnone
    rw [findFrom, hnone]
  | cons name names ih =>
    rw [Path.isShort_cons] at hshort
    rw [List.append_cons] at hnone
    -- the search stops here if nothing stands here, and goes on below if a directory does
    cases hhere : tree.nodes[here]? with
    | none => rw [findFrom, hhere]
    | some node =>
      cases node with
      | file content =>
        have hnotFile := hway [] content (List.nil_prefix ..)
        rw [List.append_nil] at hnotFile
        exact absurd hhere hnotFile
      | directory =>
        rw [findFrom_cons hhere, if_neg (Nat.not_lt.mpr hshort.1)]
        refine ih hnone hshort.2 fun way content hprefix => ?_
        rw [← List.append_cons]
        exact hway (name :: way) content (List.cons_prefix_cons.mpr ⟨rfl, hprefix⟩)

/-- Nothing is found where nothing stands, unless a file or too long a name is in the way. -/
theorem find_eq_notFound (hnone : tree.nodes[path]? = none) (hshort : path.IsShort)
    (hway : ∀ way content, way <+: path → tree.nodes[way]? ≠ some (.file content)) :
    tree.find path = .error .notFound :=
  findFrom_eq_notFound hnone hshort hway

/-- Nothing is found behind a file. -/
theorem findFrom_eq_notDirectory {way : Path} {content : ByteArray} (hway : way <+: names)
    (hne : way ≠ names) (hfile : tree.nodes[here ++ way]? = some (.file content))
    (hshort : Path.IsShort names) : tree.findFrom here names = .error .notDirectory := by
  induction names generalizing here way with
  | nil => exact absurd (List.prefix_nil.mp hway) hne
  | cons name names ih =>
    rcases List.prefix_cons_iff.mp hway with rfl | ⟨way, rfl, hbelow⟩
    · rw [List.append_nil] at hfile
      rw [findFrom, hfile]
    -- the file stands further down, so a directory stands here
    · have hhere := directory_of_getElem? hfile
      rw [Path.isShort_cons] at hshort
      rw [findFrom_cons hhere, if_neg (Nat.not_lt.mpr hshort.1)]
      rw [List.append_cons] at hfile
      exact ih hbelow (fun heq => hne (congrArg _ heq)) hfile hshort.2

/-- Nothing is found behind a file. -/
theorem find_eq_notDirectory {way : Path} {content : ByteArray} (hway : way <+: path)
    (hne : way ≠ path) (hfile : tree.nodes[way]? = some (.file content)) (hshort : path.IsShort) :
    tree.find path = .error .notDirectory :=
  findFrom_eq_notDirectory hway hne hfile hshort

/-- Nothing is found where nothing stands behind directories. -/
theorem find_eq_notFound_of_way (hnone : tree.nodes[path]? = none) (hshort : path.IsShort)
    (hway : ∀ way content, way <+: path → way ≠ path →
      tree.nodes[way]? ≠ some (.file content)) : tree.find path = .error .notFound := by
  refine find_eq_notFound hnone hshort fun way content hprefix => ?_
  by_cases heq : way = path
  · rw [heq, hnone]
    nofun
  · exact hway way content hprefix heq

/-- What is found at a path depends on what stands there and on the files in the way. -/
theorem find_congr {other : FileTree} (hshort : path.IsShort)
    (hway : ∀ way content, way <+: path → way ≠ path →
      (tree.nodes[way]? = some (.file content) ↔ other.nodes[way]? = some (.file content)))
    (hnode : tree.nodes[path]? = other.nodes[path]?) : tree.find path = other.find path := by
  -- a file on the way blocks the search in both trees
  by_cases hblocked : ∃ way content, way <+: path ∧ way ≠ path ∧
      tree.nodes[way]? = some (.file content)
  · obtain ⟨way, content, hprefix, hne, hfile⟩ := hblocked
    rw [find_eq_notDirectory hprefix hne hfile hshort,
      find_eq_notDirectory hprefix hne ((hway way content hprefix hne).mp hfile) hshort]
  · have hfree : ∀ way content, way <+: path → way ≠ path →
        tree.nodes[way]? ≠ some (.file content) := fun way content hprefix hne hfile =>
      hblocked ⟨way, content, hprefix, hne, hfile⟩
    have hfree' : ∀ way content, way <+: path → way ≠ path →
        other.nodes[way]? ≠ some (.file content) := fun way content hprefix hne hfile =>
      hfree way content hprefix hne ((hway way content hprefix hne).mpr hfile)
    cases hfound : tree.nodes[path]? with
    | some node =>
      rw [find_eq_ok_iff.mpr ⟨hfound, hshort⟩, find_eq_ok_iff.mpr ⟨hnode ▸ hfound, hshort⟩]
    | none =>
      rw [find_eq_notFound_of_way hfound hshort hfree,
        find_eq_notFound_of_way (hnode ▸ hfound) hshort hfree']

/-- The content read is that of the file at the path. -/
theorem read_eq_ok_iff {content : ByteArray} :
    tree.read path = .ok content ↔ tree.nodes[path]? = some (.file content) ∧ path.IsShort := by
  rw [← find_eq_ok_iff, read]
  cases tree.find path with
  | error => simp
  | ok node => cases node <;> simp

/-- The names told of a directory lead one step below it. -/
theorem childName?_eq_some_iff {directory : Path} {name : String} :
    childName? directory path = some name ↔ path = directory ++ [name] := by
  fun_induction childName? directory path with
  | case1 other => simp
  | case2 step directory path ih => simp [ih]
  | case3 step directory other path h => simp [Ne.symm h]
  | case4 directory path hlast hstep =>
    -- none of the cases before applies, so the path leads elsewhere
    refine ⟨nofun, ?_⟩
    rintro rfl
    cases directory with
    | nil => exact absurd rfl (hlast name rfl)
    | cons step directory => exact absurd rfl (hstep step directory step _ rfl)

/-- The nodes after one of them is put. -/
theorem getElem?_set (h : tree.CanHold path node) (other : Path) :
    (tree.set path node).nodes[other]? =
      if path = other then some node else tree.nodes[other]? := by
  rw [set, dif_pos h, Std.ExtTreeMap.getElem?_insert]
  simp only [Std.LawfulEqCmp.compare_eq_iff_eq]

/-- The nodes after a file is erased. -/
theorem getElem?_erase (h : tree.nodes[path]? ≠ some .directory) (other : Path) :
    (tree.erase path).nodes[other]? = if path = other then none else tree.nodes[other]? := by
  rw [erase, dif_pos h, Std.ExtTreeMap.getElem?_erase]
  simp only [Std.LawfulEqCmp.compare_eq_iff_eq]

/-- The search for a path comes by every directory on the way. -/
theorem findFrom_append (h : tree.nodes[here ++ names]? = some .directory)
    (hshort : Path.IsShort names) (more : List String) :
    tree.findFrom here (names ++ more) = tree.findFrom (here ++ names) more := by
  induction names generalizing here with
  | nil => rw [List.nil_append, List.append_nil]
  | cons name names ih =>
    rw [Path.isShort_cons] at hshort
    rw [List.cons_append, findFrom_cons (directory_of_getElem? h),
      if_neg (Nat.not_lt.mpr hshort.1), List.append_cons here name names]
    rw [List.append_cons] at h
    exact ih h hshort.2

/-- What is found below a directory. -/
theorem find_append_singleton {directory : Path}
    (h : tree.nodes[directory]? = some .directory) (hshort : directory.IsShort) (name : String) :
    tree.find (directory ++ [name]) =
      if FileName.maxBytes < name.utf8ByteSize then .error .nameTooLong
      else match tree.nodes[directory ++ [name]]? with
        | some node => .ok node
        | none => .error .notFound := by
  rw [find, findFrom_append h hshort, List.nil_append, findFrom_cons h]
  rfl

/-- A file can be put below a directory, unless a directory stands there. -/
theorem checkFilePlace_eq_ok_iff {directory : Path} {name : String} :
    tree.checkFilePlace (directory ++ [name]) = .ok () ↔
      tree.nodes[directory]? = some .directory ∧
      tree.nodes[directory ++ [name]]? ≠ some .directory ∧
      (directory ++ [name]).IsShort := by
  rw [checkFilePlace, List.dropLast_concat, Path.isShort_append, Path.isShort_cons]
  constructor
  · intro h
    split at h
    · next content hfound =>
      obtain ⟨hnode, hshort⟩ := find_eq_ok_iff.mp hfound
      rw [Path.isShort_append, Path.isShort_cons] at hshort
      refine ⟨directory_of_getElem? hnode, ?_, hshort⟩
      rw [hnode]
      nofun
    · cases h
    · next hfound =>
      split at h
      · next hdirectory =>
        obtain ⟨hnode, hshort⟩ := find_eq_ok_iff.mp hdirectory
        have hnone := getElem?_of_find_notFound hfound
        refine ⟨hnode, by rw [hnone]; nofun, hshort, ?_, Path.isShort_nil⟩
        -- a name that is too long would have been noticed first
        rw [find_append_singleton hnode hshort] at hfound
        split at hfound
        · cases hfound
        · next hname => exact Nat.not_lt.mp hname
      · cases h
      · cases h
    · cases h
  · rintro ⟨hdirectory, hnode, hshort, hname, -⟩
    rw [find_append_singleton hdirectory hshort, if_neg (Nat.not_lt.mpr hname)]
    cases hfound : tree.nodes[directory ++ [name]]? with
    | none =>
      have hfind := find_eq_ok_iff.mpr ⟨hdirectory, hshort⟩
      simp [hfind]
    | some node =>
      cases node with
      | file => rfl
      | directory => exact absurd hfound hnode

/-- Where a file can be put, the tree can hold it. -/
theorem canHold_of_checkFilePlace {directory : Path} {name : String}
    (h : tree.checkFilePlace (directory ++ [name]) = .ok ()) (content : ByteArray) :
    tree.CanHold (directory ++ [name]) (.file content) := by
  obtain ⟨hdirectory, hnode, -⟩ := checkFilePlace_eq_ok_iff.mp h
  refine ⟨Or.inr ?_, Or.inr hnode⟩
  rw [List.dropLast_concat]
  exact hdirectory

/-- A file is written wherever it has a place. -/
theorem write_of_checkFilePlace (h : tree.checkFilePlace path = .ok ()) (content : ByteArray) :
    tree.write path content = (.ok (), tree.set path (.file content)) := by
  rw [write, h]

/-- The nodes after a file is put below a directory. -/
theorem getElem?_set_file {directory : Path} {name : String}
    (h : tree.checkFilePlace (directory ++ [name]) = .ok ()) (content : ByteArray) (other : Path) :
    (tree.set (directory ++ [name]) (.file content)).nodes[other]? =
      if directory ++ [name] = other then some (.file content) else tree.nodes[other]? :=
  getElem?_set (canHold_of_checkFilePlace h content) other

/-- A file that is removed is there, and all else stays. -/
theorem remove_of_read {content : ByteArray} (h : tree.read path = .ok content) :
    tree.remove path = (.ok (), tree.erase path) := by
  rw [remove, h]

/-- Nothing is read from a directory. -/
theorem ne_directory_of_read {content : ByteArray} (h : tree.read path = .ok content) :
    tree.nodes[path]? ≠ some .directory := by
  rw [(read_eq_ok_iff.mp h).1]
  nofun

/-- A file can be moved exactly to where a file has a place. -/
theorem rename_eq_ok_iff {source target : Path} {content : ByteArray}
    (hsource : tree.read source = .ok content) :
    (tree.rename source target).1 = .ok () ↔ tree.checkFilePlace target = .ok () := by
  rw [rename, hsource]
  cases tree.checkFilePlace target <;> simp

/-- After a file is moved, it stands at its target and no more at its source. -/
theorem getElem?_rename {source directory : Path} {name : String} {content : ByteArray}
    (hsource : tree.read source = .ok content)
    (htarget : tree.checkFilePlace (directory ++ [name]) = .ok ()) (other : Path) :
    (tree.rename source (directory ++ [name])).2.nodes[other]? =
      if directory ++ [name] = other then some (.file content)
      else if source = other then none
      else tree.nodes[other]? := by
  have herase := getElem?_erase (ne_directory_of_read hsource)
  obtain ⟨hdirectory, hnode, hshort⟩ := checkFilePlace_eq_ok_iff.mp htarget
  -- the source is a file, so it is not the directory of the target
  have hne : source ≠ directory := by
    rintro rfl
    exact ne_directory_of_read hsource hdirectory
  have hplace : (tree.erase source).checkFilePlace (directory ++ [name]) = .ok () := by
    refine checkFilePlace_eq_ok_iff.mpr ⟨?_, ?_, hshort⟩
    · rw [herase, if_neg hne, hdirectory]
    · rw [herase]
      split
      · nofun
      · exact hnode
  rw [rename, hsource, htarget]
  rw [getElem?_set_file hplace, herase]

/-- The nodes after a directory is made where it can stand. -/
theorem getElem?_ensureDirectory (h : tree.ensureDirectory path = .ok after)
    (hplace : path = [] ∨ tree.nodes[path.dropLast]? = some .directory) (other : Path) :
    after.nodes[other]? = if path = other then some .directory else tree.nodes[other]? := by
  rw [ensureDirectory] at h
  split at h
  -- the directory is there already
  · next hnode =>
    cases h
    split
    · next heq => rw [← heq, hnode]
    · rfl
  · cases h
  · cases h
    exact getElem?_set ⟨hplace, Or.inl rfl⟩ other

/-- A directory is made that the next one on the way can stand in. -/
theorem getElem?_dropLast_of_ensureDirectory (h : tree.ensureDirectory here = .ok after)
    (hplace : here = [] ∨ tree.nodes[here.dropLast]? = some .directory) (name : String) :
    after.nodes[(here ++ [name]).dropLast]? = some .directory := by
  rw [List.dropLast_concat, getElem?_ensureDirectory h hplace, if_pos rfl]

/-- Without names that follow, only the one directory is made. -/
theorem ensureDirectory_of_makeDirectoriesFrom_nil
    (h : (tree.makeDirectoriesFrom here []).1 = .ok ()) :
    tree.ensureDirectory here = .ok (tree.makeDirectoriesFrom here []).2 := by
  rw [makeDirectoriesFrom] at h ⊢
  cases hmade : tree.ensureDirectory here with
  | ok made => rfl
  | error => rw [hmade] at h; cases h

/-- Directories are made one after another, each below the one before. -/
theorem exists_of_makeDirectoriesFrom_cons {name : String}
    (h : (tree.makeDirectoriesFrom here (name :: names)).1 = .ok ()) :
    ∃ made, tree.ensureDirectory here = .ok made ∧ name.utf8ByteSize ≤ FileName.maxBytes ∧
      tree.makeDirectoriesFrom here (name :: names) =
        made.makeDirectoriesFrom (here ++ [name]) names := by
  rw [makeDirectoriesFrom] at h
  split at h
  · next made hmade =>
    split at h
    · cases h
    -- the name is not too long, and the next directory is made below
    · next hname =>
      refine ⟨made, hmade, Nat.not_lt.mp hname, ?_⟩
      rw [makeDirectoriesFrom, hmade]
      exact if_neg hname
  · cases h

/-- Once directories are made on the way, they stand there, and all else is as before. -/
theorem getElem?_makeDirectoriesFrom
    (h : (tree.makeDirectoriesFrom here names).1 = .ok ())
    (hplace : here = [] ∨ tree.nodes[here.dropLast]? = some .directory) :
    Path.IsShort names ∧
    (∀ way, way <+: names →
      (tree.makeDirectoriesFrom here names).2.nodes[here ++ way]? = some .directory) ∧
    (∀ other, (∀ way, way <+: names → other ≠ here ++ way) →
      (tree.makeDirectoriesFrom here names).2.nodes[other]? = tree.nodes[other]?) := by
  induction names generalizing tree here with
  | nil =>
    have hnodes := getElem?_ensureDirectory (ensureDirectory_of_makeDirectoriesFrom_nil h) hplace
    refine ⟨Path.isShort_nil, fun way hway => ?_, fun other hother => ?_⟩
    · rw [List.prefix_nil.mp hway, List.append_nil, hnodes, if_pos rfl]
    · have hne := hother [] (List.nil_prefix ..)
      rw [List.append_nil] at hne
      rw [hnodes, if_neg (Ne.symm hne)]
  | cons name names ih =>
    obtain ⟨made, hmade, hname, hrest⟩ := exists_of_makeDirectoriesFrom_cons h
    have hnodes := getElem?_ensureDirectory hmade hplace
    rw [hrest] at h ⊢
    obtain ⟨hshort, hbelow, hkept⟩ :=
      ih h (Or.inr (getElem?_dropLast_of_ensureDirectory hmade hplace name))
    refine ⟨Path.isShort_cons.mpr ⟨hname, hshort⟩, fun way hway => ?_, fun other hother => ?_⟩
    · rcases List.prefix_cons_iff.mp hway with rfl | ⟨way, rfl, hprefix⟩
      · -- what is made below leaves the first directory as it is
        rw [List.append_nil, hkept here (by simp), hnodes, if_pos rfl]
      · rw [List.append_cons here name way]
        exact hbelow way hprefix
    · have hne := hother [] (List.nil_prefix ..)
      rw [List.append_nil] at hne
      have hways : ∀ way, way <+: names → other ≠ here ++ [name] ++ way := by
        intro way hway
        rw [← List.append_cons]
        exact hother (name :: way) (List.cons_prefix_cons.mpr ⟨rfl, hway⟩)
      rw [hkept other hways, hnodes, if_neg (Ne.symm hne)]

/-- Making a directory makes those on the way, and changes nothing else. -/
theorem getElem?_makeDirectories (h : (tree.makeDirectories path).1 = .ok ()) :
    path.IsShort ∧
    (∀ way, way <+: path → (tree.makeDirectories path).2.nodes[way]? = some .directory) ∧
    (∀ other, ¬ other <+: path →
      (tree.makeDirectories path).2.nodes[other]? = tree.nodes[other]?) := by
  obtain ⟨hshort, hmade, hkept⟩ := getElem?_makeDirectoriesFrom h (Or.inl rfl)
  refine ⟨hshort, hmade, fun other hother => hkept other fun way hway heq => ?_⟩
  rw [heq] at hother
  exact hother hway

/-- What stands in a directory stays when the directory is made. -/
theorem getElem?_makeDirectories_concat (h : (tree.makeDirectories path).1 = .ok ())
    (name : String) :
    (tree.makeDirectories path).2.nodes[path ++ [name]]? = tree.nodes[path ++ [name]]? := by
  refine (getElem?_makeDirectories h).2.2 _ fun hprefix => ?_
  have hle := hprefix.length_le
  rw [List.length_append] at hle
  exact Nat.not_succ_le_self _ hle

/-- A directory is made where no file stands. -/
theorem exists_ensureDirectory (h : ∀ content, tree.nodes[path]? ≠ some (.file content)) :
    ∃ made, tree.ensureDirectory path = .ok made := by
  rw [ensureDirectory]
  cases hnode : tree.nodes[path]? with
  | none => exact ⟨_, rfl⟩
  | some node =>
    cases node with
    | directory => exact ⟨_, rfl⟩
    | file content => exact absurd hnode (h content)

/-- No directory is made where a file stands. -/
theorem ne_file_of_ensureDirectory (h : tree.ensureDirectory path = .ok after)
    (content : ByteArray) : tree.nodes[path]? ≠ some (.file content) := by
  intro hfile
  rw [ensureDirectory, hfile] at h
  cases h

/-- Directories are made on a short way if no file is in it. -/
theorem makeDirectoriesFrom_of_way
    (hway : ∀ way content, way <+: names → tree.nodes[here ++ way]? ≠ some (.file content))
    (hplace : here = [] ∨ tree.nodes[here.dropLast]? = some .directory)
    (hshort : Path.IsShort names) : (tree.makeDirectoriesFrom here names).1 = .ok () := by
  have hhere : ∀ content, tree.nodes[here]? ≠ some (.file content) := by
    simpa using fun content => hway [] content (List.nil_prefix ..)
  obtain ⟨made, hmade⟩ := exists_ensureDirectory hhere
  have hnodes := getElem?_ensureDirectory hmade hplace
  induction names generalizing tree here made with
  | nil => rw [makeDirectoriesFrom, hmade]
  | cons name names ih =>
    rw [Path.isShort_cons] at hshort
    rw [makeDirectoriesFrom, hmade]
    simp only [Nat.not_lt.mpr hshort.1, if_false]
    -- making the first directory puts no file in the way of the others
    have hbelow : ∀ way content, way <+: names →
        made.nodes[here ++ [name] ++ way]? ≠ some (.file content) := by
      intro way content hprefix
      rw [← List.append_cons, hnodes, if_neg (by simp)]
      exact hway (name :: way) content (List.cons_prefix_cons.mpr ⟨rfl, hprefix⟩)
    have hnext : ∀ content, made.nodes[here ++ [name]]? ≠ some (.file content) := by
      simpa using fun content => hbelow [] content (List.nil_prefix ..)
    obtain ⟨next, hmadeNext⟩ := exists_ensureDirectory hnext
    have hplaceNext := getElem?_dropLast_of_ensureDirectory hmade hplace name
    exact ih hbelow (Or.inr hplaceNext) hshort.2 hnext next hmadeNext
      (getElem?_ensureDirectory hmadeNext (Or.inr hplaceNext))

/-- No file is in the way of a directory that is made. -/
theorem way_of_makeDirectoriesFrom (h : (tree.makeDirectoriesFrom here names).1 = .ok ())
    (hplace : here = [] ∨ tree.nodes[here.dropLast]? = some .directory) {way : Path}
    (hway : way <+: names) (content : ByteArray) :
    tree.nodes[here ++ way]? ≠ some (.file content) := by
  induction names generalizing tree here way with
  | nil =>
    rw [List.prefix_nil.mp hway, List.append_nil]
    exact ne_file_of_ensureDirectory (ensureDirectory_of_makeDirectoriesFrom_nil h) content
  | cons name names ih =>
    obtain ⟨made, hmade, -, hrest⟩ := exists_of_makeDirectoriesFrom_cons h
    -- the way ends here, or it goes on below the directory that is made
    rcases List.prefix_cons_iff.mp hway with rfl | ⟨way, rfl, hbelow⟩
    · rw [List.append_nil]
      exact ne_file_of_ensureDirectory hmade content
    · rw [hrest] at h
      have hmadeWay :=
        ih h (Or.inr (getElem?_dropLast_of_ensureDirectory hmade hplace name)) hbelow
      rw [← List.append_cons, getElem?_ensureDirectory hmade hplace, if_neg (by simp)] at hmadeWay
      exact hmadeWay

/-- A directory can be made just if no file is in the way and no name on it is too long. -/
theorem makeDirectories_eq_ok_iff :
    (tree.makeDirectories path).1 = .ok () ↔
      path.IsShort ∧ ∀ way content, way <+: path → tree.nodes[way]? ≠ some (.file content) := by
  constructor
  · intro h
    refine ⟨(getElem?_makeDirectories h).1, fun way content hway => ?_⟩
    exact way_of_makeDirectoriesFrom h (Or.inl rfl) hway content
  · rintro ⟨hshort, hway⟩
    exact makeDirectoriesFrom_of_way hway (Or.inl rfl) hshort

section Replacing

variable {directory : Path} {name : String} {content : ByteArray}

/-- The path that a file is written to before it replaces the file of a name. -/
def temporary (directory : Path) (name : String) : Path :=
  directory ++ [FileName.withExtension name "tmp"]

/-- A file beside another one does not matter to the place of that one. -/
theorem checkFilePlace_set_file {beside : String}
    (h : tree.checkFilePlace (directory ++ [beside]) = .ok ()) :
    (tree.set (directory ++ [beside]) (.file content)).checkFilePlace (directory ++ [name]) =
        .ok () ↔
      tree.checkFilePlace (directory ++ [name]) = .ok () := by
  have hnodes := getElem?_set_file h content
  have hdirectory : directory ++ [beside] ≠ directory := by simp
  rw [checkFilePlace_eq_ok_iff, checkFilePlace_eq_ok_iff, hnodes, hnodes, if_neg hdirectory]
  by_cases heq : directory ++ [beside] = directory ++ [name]
  · have hnode := (checkFilePlace_eq_ok_iff.mp h).2.1
    rw [heq] at hnode
    simp [heq, hnode]
  · rw [if_neg heq]

/-- A file that is put below a directory is read there. -/
theorem read_set_file (h : tree.checkFilePlace (directory ++ [name]) = .ok ())
    (content : ByteArray) :
    (tree.set (directory ++ [name]) (.file content)).read (directory ++ [name]) = .ok content := by
  rw [read_eq_ok_iff, getElem?_set_file h, if_pos rfl]
  exact ⟨rfl, (checkFilePlace_eq_ok_iff.mp h).2.2⟩

/-- A file can be replaced if its directory can be made and if its name and that of the file beside
it can be those of files there. -/
theorem replaceFile_eq_ok_iff :
    (tree.replaceFile directory name content).1 = .ok () ↔
      (tree.makeDirectories directory).1 = .ok () ∧
      (tree.makeDirectories directory).2.checkFilePlace (temporary directory name) = .ok () ∧
      (tree.makeDirectories directory).2.checkFilePlace (directory ++ [name]) = .ok () := by
  rw [replaceFile]
  -- the steps are taken in order: directories, the temporary file, and the move
  cases hmake : tree.makeDirectories directory with
  | mk result made =>
    cases result with
    | error error => simp
    | ok =>
      cases hplace : made.checkFilePlace (temporary directory name) with
      | error error =>
        rw [temporary] at hplace
        simp [write, hplace]
      | ok =>
        have hwrite := write_of_checkFilePlace hplace content
        rw [temporary] at hplace hwrite
        simp only [hwrite]
        rw [rename_eq_ok_iff (read_set_file hplace content), checkFilePlace_set_file hplace]
        simp

/-- A file can be replaced if no file is in the way of its directory, no directory stands in its
place or in that of the file beside it, and no name is too long. -/
theorem replaceFile_eq_ok_iff_of_nodes :
    (tree.replaceFile directory name content).1 = .ok () ↔
      (∀ way content, way <+: directory → tree.nodes[way]? ≠ some (.file content)) ∧
      tree.nodes[temporary directory name]? ≠ some .directory ∧
      tree.nodes[directory ++ [name]]? ≠ some .directory ∧
      (temporary directory name).IsShort ∧ (directory ++ [name]).IsShort := by
  rw [replaceFile_eq_ok_iff, temporary]
  constructor
  · rintro ⟨hmake, htemporary, htarget⟩
    obtain ⟨-, hway⟩ := makeDirectories_eq_ok_iff.mp hmake
    obtain ⟨-, htemporary, hshort⟩ := checkFilePlace_eq_ok_iff.mp htemporary
    obtain ⟨-, htarget, hshort'⟩ := checkFilePlace_eq_ok_iff.mp htarget
    -- making the directories changes nothing in the last of them
    rw [getElem?_makeDirectories_concat hmake] at htemporary htarget
    exact ⟨hway, htemporary, htarget, hshort, hshort'⟩
  · rintro ⟨hway, htemporary, htarget, hshort, hshort'⟩
    have hmake := makeDirectories_eq_ok_iff.mpr ⟨(Path.isShort_append.mp hshort').1, hway⟩
    have hdirectory := (getElem?_makeDirectories hmake).2.1 directory (List.prefix_refl _)
    refine ⟨hmake, checkFilePlace_eq_ok_iff.mpr ⟨hdirectory, ?_, hshort⟩,
      checkFilePlace_eq_ok_iff.mpr ⟨hdirectory, ?_, hshort'⟩⟩
    · rwa [getElem?_makeDirectories_concat hmake]
    · rwa [getElem?_makeDirectories_concat hmake]

/-- After a file is replaced, it has its content, the one beside it is gone, the directories on the
way are there, and all else stays. -/
theorem getElem?_replaceFile (h : (tree.replaceFile directory name content).1 = .ok ())
    (other : Path) :
    (tree.replaceFile directory name content).2.nodes[other]? =
      if directory ++ [name] = other then some (.file content)
      else if temporary directory name = other then none
      else if other <+: directory then some .directory
      else tree.nodes[other]? := by
  obtain ⟨hmake, hplace, htarget⟩ := replaceFile_eq_ok_iff.mp h
  obtain ⟨-, hmade, hkept⟩ := getElem?_makeDirectories hmake
  -- the directories on the way are made, and all else is kept
  have hnodes : (tree.makeDirectories directory).2.nodes[other]? =
      if other <+: directory then some .directory else tree.nodes[other]? := by
    split
    · next hprefix => exact hmade other hprefix
    · next hprefix => exact hkept other hprefix
  rw [← hnodes, replaceFile]
  generalize tree.makeDirectories directory = made at hmake hplace htarget ⊢
  obtain ⟨result, made⟩ := made
  subst hmake
  -- the file is written beside the place of the document, and is moved there
  have hwrite := write_of_checkFilePlace hplace content
  rw [temporary] at hplace hwrite
  simp only [hwrite]
  rw [getElem?_rename (read_set_file hplace content) ((checkFilePlace_set_file hplace).mpr htarget),
    getElem?_set_file hplace, temporary]
  split
  · rfl
  · split <;> rfl

/-- A file that was replaced is read as it was written. -/
theorem read_replaceFile (h : (tree.replaceFile directory name content).1 = .ok ()) :
    (tree.replaceFile directory name content).2.read (directory ++ [name]) = .ok content := by
  rw [read_eq_ok_iff, getElem?_replaceFile h, if_pos rfl]
  exact ⟨rfl, (checkFilePlace_eq_ok_iff.mp (replaceFile_eq_ok_iff.mp h).2.2).2.2⟩

end Replacing

end FileTree

end Curation
