import Provision.Template.Scope
import Provision.Files
import Provision.Sorted

/-!
# Document stores

Input:
* documents in memory by their paths, or a file tree and the folder that holds the documents.

Algorithm:
* a store gives the text of a document at a path; in a file tree only a file is a document, and every
  other path has none;
* a file is listed as a document when its extension is one of three, in any case.

Results:
* `Store.ofTexts` and `Store.ofFiles` are the two kinds of stores; `documents` lists the paths of the
  documents of one environment and version in increasing order.
-/

namespace Provision

/-- Where the texts of documents come from. -/
abbrev Store := String → Except TemplateError String

namespace Store

def ofTexts (texts : Entries String) : Store := fun path =>
  match Entries.find? path texts with
  | some text => .ok text
  | none => .error (.notFound path)

/-- Documents below a folder of a file tree. -/
def ofFiles (files : FileTree) (root : String) : Store := fun path =>
  match files.at? (under root path) with
  | .ok (.file content) =>
    match (FileTree.file content).text with
    | .ok text => .ok text
    | .error fault => .error (.unreadable path fault.message)
  | _ => .error (.notFound path)

end Store

/-- The part of a file name after its last dot, unless the dot is its first character. -/
def extension? (name : String) : Option String :=
  match (Text.cuts '.' name.toList).getLast? with
  | some (_ :: _, after) => some (String.ofList after)
  | _ => none

def documentExtensions : List String := ["yaml", "yml", "json"]

/-- Whether a file with this name is a document. -/
def isDocument (name : String) : Bool :=
  match extension? name with
  | some e => documentExtensions.contains (Text.lowerText e)
  | none => false

/-- The documents of an environment and a version, by their paths below them. -/
def documents (files : FileTree) (root : String) (e : Environment) (v : Version) : List String :=
  match files.at? (under (under root e.label) v.label) with
  | .ok (.folder entries) =>
    Sorted.texts (((FileTree.pathsBelow entries).filter fun segments =>
      (segments.getLast?.map isDocument).getD false).map fun segments => "/".intercalate segments)
  | _ => []

end Provision
