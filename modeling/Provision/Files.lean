import Provision.Document
import Provision.Text.Split

/-!
# File trees

Input:
* folders and files as they stand below one folder, and a path that starts there.

Algorithm:
* a path is walked segment by segment; an empty segment and `.` stay in a folder and `..` leads back
  to the folder above it, never above the one where the path starts;
* only a folder has segments below it, so a path through a file fails;
* a file is written with the folders on its way, which are made first.

Results:
* `at?` gives what stands at a path or the reason why nothing does, `text` the text of a file, and
  `paths` the paths of all files below; `write` is the tree after a file was written.
-/

namespace Provision

/-- A file with its bytes, or a folder with what is in it. -/
inductive FileTree where
  | file (content : ByteArray)
  | folder (entries : List (String × FileTree))
  deriving Inhabited

inductive FileFault where
  | absent
  | notFolder
  | isFolder
  | notText
  /-- A file stands where a folder is to be made. -/
  | occupied
  /-- The system refuses for another reason. -/
  | refused (reason : String)
  deriving DecidableEq, Inhabited

def FileFault.message : FileFault → String
  | .absent => "No such file or directory (os error 2)"
  | .notFolder => "Not a directory (os error 20)"
  | .isFolder => "Is a directory (os error 21)"
  | .notText => "stream did not contain valid UTF-8"
  | .occupied => "File exists (os error 17)"
  | .refused reason => reason

/-- A path taken from a folder on; an absolute path stays as it is. -/
def under (folder path : String) : String :=
  if path.toList.head? = some '/' ∨ folder.isEmpty then path
  else if folder.toList.getLast? = some '/' then folder ++ path
  else folder ++ "/" ++ path

/-- The value that a document with this path and text holds. -/
def Shape.loadFrom {α : Type} (s : Shape α) (path : String) (text : Except FileFault String) :
    Except ConfigError α :=
  match text with
  | .ok t => s.load path t
  | .error fault => .error (.unreadable path fault.message)

namespace FileTree

/-- What segments lead to; `above` are the folders above the one at hand. -/
def walk (above : List FileTree) (here : FileTree) : List String → Except FileFault FileTree
  | [] => .ok here
  | segment :: rest =>
    match here with
    | .file _ => .error .notFolder
    | .folder entries =>
      if segment = "" ∨ segment = "." then walk above here rest
      else if segment = ".." then
        match above with
        | parent :: above => walk above parent rest
        | [] => .error .absent
      else
        match Entries.find? segment entries with
        | some t => walk (here :: above) t rest
        | none => .error .absent

def at? (tree : FileTree) (path : String) : Except FileFault FileTree :=
  if path.isEmpty || path.toList.head? = some '/' then .error .absent
  else walk [] tree (Text.splitText '/' path)

def text : FileTree → Except FileFault String
  | .file content =>
    match String.fromUTF8? content with
    | some s => .ok s
    | none => .error .notText
  | .folder _ => .error .isFolder

/-- The text of the file at a path. -/
def textAt (tree : FileTree) (path : String) : Except FileFault String :=
  (tree.at? path).bind text

/-- The value that the document at a path holds. -/
def load {α : Type} (tree : FileTree) (s : Shape α) (path : String) : Except ConfigError α :=
  s.loadFrom path (tree.textAt path)

mutual

/-- The paths from here to every file, by segments. -/
def paths : FileTree → List (List String)
  | .file _ => [[]]
  | .folder entries => pathsBelow entries

/-- The paths to every file below the entries of a folder. -/
def pathsBelow : List (String × FileTree) → List (List String)
  | [] => []
  | (name, t) :: rest => (paths t).map (name :: ·) ++ pathsBelow rest

end

/-- Puts a file or a folder at a path of segments, with the folders on the way; a file on the way
stays. -/
def put (leaf : FileTree) : List String → FileTree → FileTree
  | [], _ => leaf
  | _ :: _, .file content => .file content
  | name :: rest, .folder entries =>
    .folder (Entries.insert name
      (put leaf rest ((Entries.find? name entries).getD (.folder []))) entries)

/-- Writes a file at a path of segments. -/
def writeAt (content : ByteArray) : List String → FileTree → Except FileFault FileTree
  | [], .file _ => .ok (.file content)
  | [], .folder _ => .error .isFolder
  | [_], .file _ => .error .occupied
  | _ :: _ :: _, .file _ => .error .notFolder
  | name :: rest, .folder entries =>
    match Entries.find? name entries with
    | some t => do
      let t ← writeAt content rest t
      return .folder (Entries.insert name t entries)
    | none => .ok (put (.file content) (name :: rest) (.folder entries))

/-- The segments of a path without those that lead back, or nothing if the path leaves the folder it
starts in. -/
def straighten (back : List String) : List String → Option (List String)
  | [] => some back.reverse
  | segment :: rest =>
    if segment = "" ∨ segment = "." then straighten back rest
    else if segment = ".." then
      match back with
      | _ :: back => straighten back rest
      | [] => none
    else straighten (segment :: back) rest

/-- Whether a path can only be the path of a folder. -/
def endsAtFolder (segments : List String) : Bool :=
  match segments.getLast? with
  | some last => last = "" || last = "." || last = ".."
  | none => true

/-- Writes a text as the file at a path. -/
def write (tree : FileTree) (path text : String) : Except FileFault FileTree :=
  let segments := Text.splitText '/' path
  if path.isEmpty || path.toList.head? = some '/' then .error .absent
  else if endsAtFolder segments then .error .isFolder
  else
    match straighten [] segments with
    | some segments => writeAt text.toUTF8 segments tree
    | none => .error .absent

end FileTree
end Provision
