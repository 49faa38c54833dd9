import Curation.Store.FileName
import Std.Data.ExtTreeMap

/-!
# File trees

A file tree is what stands below a root directory, which may itself be missing: a map from paths to
directories and files. A path is the list of the names that lead from the root to it.

Each path has a node of its own, so no two names lead to one file: a tree holds no hard links and no
symbolic ones. Everything in it can be read and written, and nothing else changes it.

* `FileTree.isClosed`: what stands somewhere stands in a directory.
* `FileTree.find`: what stands at a path, or why nothing can be told.
* `FileTree.makeDirectories`, `FileTree.write`, `FileTree.rename`, `FileTree.remove`: the changes.
  Each answers the tree as it is afterwards, also if it fails.
-/

namespace Curation

/-- A path below the root. -/
abbrev Path := List String

/-- What stands at a path. -/
inductive Node where
  | directory
  | file (content : ByteArray)

instance : DecidableEq Node
  | .directory, .directory => isTrue rfl
  | .directory, .file _ => isFalse nofun
  | .file _, .directory => isFalse nofun
  | .file s, .file t =>
    match ByteArray.instDecidableEq s t with
    | isTrue h => isTrue (congrArg Node.file h)
    | isFalse h => isFalse fun hst => h (Node.file.inj hst)

/-- Why a file or a directory cannot be reached. -/
inductive FileError where
  | notFound
  -- something on the way is no directory
  | notDirectory
  -- a directory stands where a file is asked for
  | isDirectory
  | nameTooLong
  deriving DecidableEq, Repr

/-- What stands below a root directory. -/
structure FileTree where
  /-- What stands at each path; the empty path is the root. -/
  nodes : Std.ExtTreeMap Path Node := ∅
  /-- What stands somewhere stands in a directory, unless it is the root. -/
  isClosed : ∀ path name, path ++ [name] ∈ nodes → nodes[path]? = some .directory := by simp

namespace FileTree

/-- The tree without its root. -/
def empty : FileTree := {}

/-- The tree that is an empty root directory. -/
def root : FileTree where
  nodes := (∅ : Std.ExtTreeMap Path Node).insert [] .directory
  isClosed := by simp [Std.ExtTreeMap.mem_insert]

/-- Whether a node can be put at a path: the path is the root or leads into a directory, and the
node does not take the place of a directory, unless it is one. -/
def CanHold (tree : FileTree) (path : Path) (node : Node) : Prop :=
  (path = [] ∨ tree.nodes[path.dropLast]? = some .directory) ∧
    (node = .directory ∨ tree.nodes[path]? ≠ some .directory)

instance (tree : FileTree) (path : Path) (node : Node) : Decidable (tree.CanHold path node) :=
  inferInstanceAs (Decidable (_ ∧ _))

/-- A tree stays closed if a node is put where it can be. -/
theorem isClosed_insert {tree : FileTree} {path : Path} {node : Node}
    (h : tree.CanHold path node) (q : Path) (name : String)
    (hq : q ++ [name] ∈ tree.nodes.insert path node) :
    (tree.nodes.insert path node)[q]? = some .directory := by
  rw [Std.ExtTreeMap.getElem?_insert]
  simp only [Std.ExtTreeMap.mem_insert, Std.LawfulEqCmp.compare_eq_iff_eq] at hq ⊢
  rcases hq with rfl | hq
  -- the new node stands in a directory, and is not its own parent
  · have hne : q ++ [name] ≠ q := by simp
    simpa [hne] using h.1
  · split
    -- a node with something below it is replaced by a directory only
    · next heq =>
      subst heq
      have := tree.isClosed _ _ hq
      rcases h.2 with hnode | hnode
      · simp [hnode]
      · contradiction
    · exact tree.isClosed _ _ hq

/-- A tree stays closed without a node that is no directory. -/
theorem isClosed_erase {tree : FileTree} {path : Path} (h : tree.nodes[path]? ≠ some .directory)
    (q : Path) (name : String) (hq : q ++ [name] ∈ tree.nodes.erase path) :
    (tree.nodes.erase path)[q]? = some .directory := by
  rw [Std.ExtTreeMap.mem_erase] at hq
  have hdir := tree.isClosed _ _ hq.2
  rw [Std.ExtTreeMap.getElem?_erase, if_neg]
  · exact hdir
  · rw [Std.LawfulEqCmp.compare_eq_iff_eq]
    rintro rfl
    exact h hdir

/-- The tree with another node at a path, if the node can be put there. -/
def set (tree : FileTree) (path : Path) (node : Node) : FileTree :=
  if h : tree.CanHold path node then ⟨tree.nodes.insert path node, isClosed_insert h⟩ else tree

/-- The tree without the file at a path; directories stay. -/
def erase (tree : FileTree) (path : Path) : FileTree :=
  if h : tree.nodes[path]? ≠ some .directory then ⟨tree.nodes.erase path, isClosed_erase h⟩
  else tree

/-- What stands at the path `names` below `here`: each step on the way has to start at a directory
and to follow a name that is not too long. -/
def findFrom (tree : FileTree) (here : Path) : List String → Except FileError Node
  | [] =>
    match tree.nodes[here]? with
    | some node => .ok node
    | none => .error .notFound
  | name :: names =>
    match tree.nodes[here]? with
    | none => .error .notFound
    | some (.file _) => .error .notDirectory
    | some .directory =>
      if FileName.maxBytes < name.utf8ByteSize then .error .nameTooLong
      else findFrom tree (here ++ [name]) names

/-- What stands at a path. -/
def find (tree : FileTree) (path : Path) : Except FileError Node := tree.findFrom [] path

/-- The content of a file. -/
def read (tree : FileTree) (path : Path) : Except FileError ByteArray :=
  match tree.find path with
  | .ok (.file content) => .ok content
  | .ok .directory => .error .isDirectory
  | .error error => .error error

/-- The tree with a directory at a path, where it may stand already. -/
def ensureDirectory (tree : FileTree) (path : Path) : Except FileError FileTree :=
  match tree.nodes[path]? with
  | some .directory => .ok tree
  | some (.file _) => .error .notDirectory
  | none => .ok (tree.set path .directory)

/-- Makes the directory at the path `names` below `here`, and the directories on the way. -/
def makeDirectoriesFrom (tree : FileTree) (here : Path) :
    List String → Except FileError Unit × FileTree
  | [] =>
    match tree.ensureDirectory here with
    | .ok tree => (.ok (), tree)
    | .error error => (.error error, tree)
  | name :: names =>
    match tree.ensureDirectory here with
    | .ok tree =>
      if FileName.maxBytes < name.utf8ByteSize then (.error .nameTooLong, tree)
      else makeDirectoriesFrom tree (here ++ [name]) names
    | .error error => (.error error, tree)

/-- Makes the directory at a path, and the directories on the way. -/
def makeDirectories (tree : FileTree) (path : Path) : Except FileError Unit × FileTree :=
  tree.makeDirectoriesFrom [] path

/-- Whether a file can be put at a path: there is a file, or nothing in a directory. -/
def checkFilePlace (tree : FileTree) (path : Path) : Except FileError Unit :=
  match tree.find path with
  | .ok (.file _) => .ok ()
  | .ok .directory => .error .isDirectory
  | .error .notFound =>
    match tree.find path.dropLast with
    | .ok .directory => .ok ()
    | .ok (.file _) => .error .notDirectory
    | .error error => .error error
  | .error error => .error error

/-- Writes a file, instead of an earlier one. -/
def write (tree : FileTree) (path : Path) (content : ByteArray) :
    Except FileError Unit × FileTree :=
  match tree.checkFilePlace path with
  | .ok () => (.ok (), tree.set path (.file content))
  | .error error => (.error error, tree)

/-- Moves a file to another path, instead of an earlier file there. -/
def rename (tree : FileTree) (source target : Path) : Except FileError Unit × FileTree :=
  match tree.read source, tree.checkFilePlace target with
  | .ok content, .ok () => (.ok (), (tree.erase source).set target (.file content))
  | .ok _, .error error => (.error error, tree)
  | .error error, _ => (.error error, tree)

/-- The tree without the file at a path, which has to be there. -/
def remove (tree : FileTree) (path : Path) : Except FileError Unit × FileTree :=
  match tree.read path with
  | .ok _ => (.ok (), tree.erase path)
  | .error error => (.error error, tree)

/-- The name of a path that leads one step below a directory. -/
def childName? : Path → Path → Option String
  | [], [name] => some name
  | step :: directory, other :: path => if step = other then childName? directory path else none
  | _, _ => none

/-- The names of what stands in a directory, in ascending order. -/
def list (tree : FileTree) (path : Path) : Except FileError (List String) :=
  match tree.find path with
  | .ok .directory => .ok (tree.nodes.keys.filterMap (childName? path))
  | .ok (.file _) => .error .notDirectory
  | .error error => .error error

/-- Writes a file by way of another one beside it, which is then moved: the directories on the way
are made, the content is written under the name with the extension `tmp`, and the file is renamed.
-/
def replaceFile (tree : FileTree) (directory : Path) (name : String) (content : ByteArray) :
    Except FileError Unit × FileTree :=
  let temporary := directory ++ [FileName.withExtension name "tmp"]
  match tree.makeDirectories directory with
  | (.error error, tree) => (.error error, tree)
  | (.ok (), tree) =>
    match tree.write temporary content with
    | (.error error, tree) => (.error error, tree)
    -- If the file cannot be moved, it stays under the name that it was written to.
    | (.ok (), tree) => tree.rename temporary (directory ++ [name])

end FileTree

end Curation
