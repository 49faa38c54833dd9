import Curation.Settings
import Curation.Store.FileTree

/-!
# Settings in files
-/

namespace Curation.Settings

/-- The settings that a file tells. -/
def load (tree : FileTree) (path : Path) : Except Failure Settings :=
  match tree.read path with
  | .error _ => .error .inaccessible
  | .ok content =>
    match String.fromUTF8? content with
    | some text => parse text
    | none => .error .inaccessible

/-- Writes settings to a file, and makes the directories on the way. -/
def save (settings : Settings) (tree : FileTree) (directory : Path) (name : String) :
    Except Failure Unit × FileTree :=
  match tree.replaceFile directory name settings.text.toUTF8 with
  | (.ok (), tree) => (.ok (), tree)
  | (.error _, tree) => (.error .inaccessible, tree)

end Curation.Settings
