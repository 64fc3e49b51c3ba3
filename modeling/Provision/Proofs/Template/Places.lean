import Mathlib.Data.List.Basic
import Provision.Proofs.Files
import Provision.Template.Request

/-!
# What a request can reach

The documents of an environment and a version stand in one folder of a file tree, or in memory under
paths that begin with both names.  A request that passes its check has no `..` in its path, so it
reaches nothing but what is beneath that place.

**Results.**
* `Store.resolve_of_agreeBelow`: two stores that agree beneath a place resolve every request for
  this place in the same way.
-/

namespace Provision

/-! ## Paths -/

theorem under_append
    {path : String}
    (h : path ≠ "")
    (root rest : String) :
    under root (path ++ rest) = under root path ++ rest := by
  have hhead : (path ++ rest).toList.head? = path.toList.head? := by
    have hne : path.toList ≠ [] := fun hnil => h (String.toList_eq_nil_iff.mp hnil)
    rw [String.toList_append, List.head?_append_of_ne_nil _ hne]
  rw [under, under, hhead]
  split
  · rfl
  · split
    · rw [String.append_assoc]
    · rw [String.append_assoc, String.append_assoc, String.append_assoc]

/-- A path under a folder ends as the path itself. -/
theorem exists_under
    (root path : String) :
    ∃ before, under root path = before ++ path := by
  rw [under]
  split
  · exact ⟨"", by simp⟩
  · split
    · exact ⟨root, rfl⟩
    · exact ⟨root ++ "/", rfl⟩

/-- The folder of an environment and a version. -/
def folderOf (root : String) (e : Environment) (v : Version) : String :=
  under (under root e.label) v.label

theorem folderOf_eq
    (root : String)
    (e : Environment)
    (v : Version) :
    folderOf root e v = under root e.label ++ "/" ++ v.label := by
  have hlabel : e.label.toList.getLast? ≠ some '/' ∧ e.label.toList ≠ [] := by
    cases e <;> decide
  have hversion : v.label.toList.head? ≠ some '/' := by
    cases v <;> decide
  obtain ⟨before, hbefore⟩ := exists_under root e.label
  have hlast : (under root e.label).toList.getLast? ≠ some '/' := by
    rw [hbefore, String.toList_append, List.getLast?_append_of_ne_nil _ hlabel.2]
    exact hlabel.1
  have hsome : (under root e.label).isEmpty = false := by
    rw [Bool.eq_false_iff, ne_eq, String.isEmpty_iff, hbefore]
    intro hnil
    have := congrArg String.toList hnil
    rw [String.toList_append] at this
    exact hlabel.2 (List.append_eq_nil_iff.mp this).2
  rw [folderOf, under, if_neg (by simp [hversion, hsome]), if_neg hlast]

theorem folderOf_ne_empty
    (root : String)
    (e : Environment)
    (v : Version) :
    folderOf root e v ≠ "" := by
  intro hempty
  have hcharacters := congrArg String.toList hempty
  simp [folderOf_eq, String.toList_append] at hcharacters

namespace Request

/-- A request that passes its check stays beneath its place. -/
theorem down_of_check
    {r : Request}
    (h : r.check = .ok ()) :
    ".." ∉ Text.splitText '/' r.path := by
  rw [check] at h
  split at h
  · cases h
  · split at h
    · cases h
    · rename_i hstays
      exact fun hback => hstays (escapes_iff.mpr (Or.inl hback))

theorem under_location
    (root : String)
    (r : Request) :
    under root r.location = folderOf root r.environment r.version ++ "/" ++ r.path := by
  have hlabel : r.environment.label ≠ "" := by
    cases r.environment <;> decide
  rw [location, folderOf_eq, String.append_assoc, String.append_assoc, String.append_assoc,
    under_append hlabel]
  simp only [String.append_assoc]

end Request

/-! ## Files beneath a folder -/

namespace FileTree

/-- The content of the file that names lead to beneath a folder. -/
def contentBelow? (tree : FileTree) (folder : String) (names : List String) :
    Option ByteArray :=
  match tree.at? folder with
  | .ok t => t.content? names
  | .error _ => none

/-- What stands beneath a folder is looked for from the folder on. -/
theorem at?_append
    (tree : FileTree)
    {folder rest : String}
    (hfolder : folder ≠ "")
    (hdown : ".." ∉ Text.splitText '/' rest) :
    tree.at? (folder ++ "/" ++ rest) =
      (tree.at? folder).bind fun t => walk [] t (Text.splitText '/' rest) := by
  have hne : folder.toList ≠ [] := fun hnil => hfolder (String.toList_eq_nil_iff.mp hnil)
  have hcharacters : (folder ++ "/" ++ rest).toList = folder.toList ++ '/' :: rest.toList := by
    simp [String.toList_append]
  have hhead : (folder ++ "/" ++ rest).toList.head? = folder.toList.head? := by
    rw [hcharacters, List.head?_append_of_ne_nil _ hne]
  have hsegments : Text.splitText '/' (folder ++ "/" ++ rest) =
      Text.splitText '/' folder ++ Text.splitText '/' rest := by
    rw [Text.splitText, hcharacters, Text.split_append, List.map_append]
    rfl
  have hsome : folder.isEmpty = false ∧ (folder ++ "/" ++ rest).isEmpty = false := by
    simp [Bool.eq_false_iff, String.isEmpty_iff, hfolder]
  rw [at?, at?, hhead, hsome.1, hsome.2]
  split
  · rfl
  · rw [hsegments, walk_append hdown]

/-- The file that a path beneath a folder leads to is the one under its names. -/
theorem at?_eq_file_iff
    {tree : FileTree}
    {folder rest : String}
    (hfolder : folder ≠ "")
    (hdown : ".." ∉ Text.splitText '/' rest)
    {content : ByteArray} :
    tree.at? (folder ++ "/" ++ rest) = .ok (.file content) ↔
      tree.contentBelow? folder (names (Text.splitText '/' rest)) = some content ∧
        ∀ s ∈ (Text.splitText '/' rest).getLast?, ¬ Stays s := by
  rw [at?_append tree hfolder hdown, contentBelow?]
  cases tree.at? folder with
  | ok t => exact walk_eq_file_iff hdown
  | error fault =>
      refine iff_of_false nofun ?_
      rintro ⟨hnone, _⟩
      cases hnone

end FileTree

namespace Store

/-- The text of a document depends only on the file that its path leads to. -/
theorem ofFiles_congr
    {files files' : FileTree}
    {root root' path : String}
    (h : ∀ content, files.at? (under root path) = .ok (.file content) ↔
      files'.at? (under root' path) = .ok (.file content)) :
    ofFiles files root path = ofFiles files' root' path := by
  rw [ofFiles, ofFiles]
  split
  · rename_i content hfound
    rw [(h content).mp hfound]
  · rename_i hnone
    split
    · rename_i content hfound
      exact absurd ((h content).mpr hfound) (hnone content)
    · rfl

/-- Two stores of one kind that hold the same documents beneath an environment and a version. -/
inductive AgreeBelow (e : Environment) (v : Version) : Store → Store → Prop
  | texts
      {texts texts' : Entries String}
      (same : ∀ path, ".." ∉ Text.splitText '/' path →
        Entries.find? (e.label ++ "/" ++ v.label ++ "/" ++ path) texts =
          Entries.find? (e.label ++ "/" ++ v.label ++ "/" ++ path) texts') :
      AgreeBelow e v (ofTexts texts) (ofTexts texts')
  | files
      {files files' : FileTree}
      {root root' : String}
      (same : ∀ names, names ≠ [] →
        files.contentBelow? (folderOf root e v) names =
          files'.contentBelow? (folderOf root' e v) names) :
      AgreeBelow e v (ofFiles files root) (ofFiles files' root')

variable {store store' : Store}

/-- Stores that agree beneath a place give the same text for every path that stays there. -/
theorem AgreeBelow.text_eq
    {r : Request}
    (h : AgreeBelow r.environment r.version store store')
    (hdown : ".." ∉ Text.splitText '/' r.path) :
    store r.location = store' r.location := by
  cases h with
  | texts same =>
      rw [ofTexts, ofTexts, Request.location, same r.path hdown]
  | @files files files' root root' same =>
      refine ofFiles_congr fun content => ?_
      rw [Request.under_location, Request.under_location,
        FileTree.at?_eq_file_iff (folderOf_ne_empty root _ _) hdown,
        FileTree.at?_eq_file_iff (folderOf_ne_empty root' _ _) hdown]
      refine and_congr_left fun hlast => ?_
      have hsegments : Text.splitText '/' r.path ≠ [] := by
        simp [Text.splitText, Text.split_ne_nil]
      rw [same _ (FileTree.names_ne_nil hlast hsegments)]

/-- Stores that agree beneath a place resolve every request for this place in the same way. -/
theorem resolve_of_agreeBelow
    {r : Request}
    (h : AgreeBelow r.environment r.version store store')
    (c : Context) :
    store.resolve r c = store'.resolve r c := by
  rw [resolve, resolve]
  cases hcheck : r.check with
  | error e => rfl
  | ok _ => rw [h.text_eq (Request.down_of_check hcheck)]

end Store
end Provision
