import Mathlib.Data.List.Nodup
import Provision.Proofs.Entries
import Provision.Proofs.Sorted
import Provision.Proofs.Template.Refusal

/-!
# Documents that are listed

The documents of a place are found by going through all entries below it, and a document is opened by
walking along its path.  In a tree as it stands on a disk, where the entries of a folder have
different names without slashes, both ways meet the same files: a file below a folder is known by the
names that lead to it, and these can be told from the path that they make up.

For the same reason the files of a tree can be kept in memory under their paths, and a store that has
them there gives the same texts.

**Results.**
* `FileTree.mem_paths_iff`, `FileTree.paths_nodup`: every file is met once.
* `FileTree.find?_texts`: the texts of a tree by their paths.
* `FileTree.at?_under`: a path is walked from the folder that it is taken from.
* `isDocument_iff`: which names are those of documents.
* `documents_perm`: no document is left out or listed twice.
* `Store.listed_alike`: what is listed, and that it is resolved from files as from memory.
-/

namespace Provision

namespace FileTree

/-! ## Trees as they stand on a disk -/

/-- A name that an entry of a folder can have. -/
def IsName (name : String) : Prop :=
  ¬ Stays name ∧ name ≠ ".." ∧ '/' ∉ name.toList

instance (name : String) : Decidable (IsName name) :=
  inferInstanceAs (Decidable (_ ∧ _))

/-- Trees of files that hold texts and of folders whose entries have different names. -/
inductive Regular : FileTree → Prop
  | file
      {content : ByteArray}
      {s : String}
      (decoded : String.fromUTF8? content = some s) :
      Regular (.file content)
  | folder
      {entries : List (String × FileTree)}
      (distinct : (Entries.keys entries).Nodup)
      (named : ∀ e ∈ entries, IsName e.1)
      (below : ∀ e ∈ entries, Regular e.2) :
      Regular (.folder entries)

theorem pathsBelow_eq_flatMap
    (entries : List (String × FileTree)) :
    pathsBelow entries = entries.flatMap fun e => (paths e.2).map (e.1 :: ·) := by
  induction entries with
  | nil => rfl
  | cons e rest ih => rw [pathsBelow, ih, List.flatMap_cons]

theorem mem_pathsBelow_iff
    {entries : List (String × FileTree)}
    {names : List String} :
    names ∈ pathsBelow entries ↔ ∃ e ∈ entries, ∃ rest ∈ paths e.2, e.1 :: rest = names := by
  rw [pathsBelow_eq_flatMap]
  simp only [List.mem_flatMap, List.mem_map]

section Regular

variable {tree : FileTree} {names : List String}

/-- The paths of a tree are the names that lead to a file. -/
theorem mem_paths_iff
    (h : tree.Regular) :
    names ∈ tree.paths ↔ (tree.content? names).isSome := by
  induction h generalizing names with
  | file _ => cases names <;> simp [paths, content?]
  | folder hdistinct _ _ ih =>
      rw [paths, mem_pathsBelow_iff]
      cases names with
      | nil => simp [content?]
      | cons name rest =>
          rw [content?]
          constructor
          · rintro ⟨e, he, rest', hrest, heq⟩
            cases heq
            rw [(Entries.find?_eq_some_iff hdistinct).mpr he]
            exact (ih e he).mp hrest
          · intro hsome
            obtain ⟨content, hcontent⟩ := Option.isSome_iff_exists.mp hsome
            obtain ⟨t, ht, hrest⟩ := Option.bind_eq_some_iff.mp hcontent
            have he := Entries.mem_of_find?_eq_some ht
            exact ⟨_, he, rest, (ih _ he).mpr (Option.isSome_iff_exists.mpr ⟨content, hrest⟩), rfl⟩

/-- No file is met twice. -/
theorem paths_nodup
    (h : tree.Regular) :
    tree.paths.Nodup := by
  induction h with
  | file _ => exact List.nodup_singleton []
  | folder hdistinct _ _ ih =>
      rw [paths, pathsBelow_eq_flatMap, List.nodup_flatMap]
      refine ⟨fun e he => (ih e he).map (List.cons_injective), ?_⟩
      refine (List.pairwise_map.mp hdistinct).imp fun hne => ?_
      -- Paths below different entries start with different names.
      intro path hpath hpath'
      obtain ⟨rest, _, rfl⟩ := List.mem_map.mp hpath
      obtain ⟨rest', _, heq⟩ := List.mem_map.mp hpath'
      exact hne (List.cons.inj heq).1.symm

theorem isName_of_content?
    (h : tree.Regular)
    {content : ByteArray}
    (hcontent : tree.content? names = some content) :
    ∀ name ∈ names, IsName name := by
  induction h generalizing names with
  | file _ =>
      cases names with
      | nil => exact List.forall_mem_nil _
      | cons name rest => cases hcontent
  | folder _ hnamed _ ih =>
      cases names with
      | nil => cases hcontent
      | cons name rest =>
          obtain ⟨t, ht, hrest⟩ := Option.bind_eq_some_iff.mp hcontent
          have he := Entries.mem_of_find?_eq_some ht
          exact List.forall_mem_cons.mpr ⟨hnamed _ he, ih _ he hrest⟩

/-- Every file holds a text. -/
theorem exists_text_of_content?
    (h : tree.Regular)
    {content : ByteArray}
    (hcontent : tree.content? names = some content) :
    ∃ s, String.fromUTF8? content = some s := by
  induction h generalizing names with
  | file hdecoded =>
      cases names with
      | nil =>
          cases hcontent
          exact ⟨_, hdecoded⟩
      | cons name rest => cases hcontent
  | folder _ _ _ ih =>
      cases names with
      | nil => cases hcontent
      | cons name rest =>
          obtain ⟨t, ht, hrest⟩ := Option.bind_eq_some_iff.mp hcontent
          exact ih _ (Entries.mem_of_find?_eq_some ht) hrest

/-- What stands at a place of a regular tree is regular. -/
theorem Regular.walk
    (h : tree.Regular)
    {above : List FileTree}
    (habove : ∀ t ∈ above, t.Regular)
    {segments : List String}
    {t : FileTree}
    (ht : FileTree.walk above tree segments = .ok t) :
    t.Regular := by
  induction segments generalizing tree above with
  | nil =>
      cases ht
      exact h
  | cons segment rest ih =>
      cases h with
      | file _ => cases ht
      | folder hdistinct hnamed hbelow =>
          simp only [FileTree.walk] at ht
          split at ht
          · exact ih (.folder hdistinct hnamed hbelow) habove ht
          · split at ht
            · cases above with
              | nil => cases ht
              | cons parent above =>
                  obtain ⟨hparent, habove⟩ := List.forall_mem_cons.mp habove
                  exact ih hparent habove ht
            · cases hentry : Entries.find? segment _ with
              | none =>
                  rw [hentry] at ht
                  cases ht
              | some t' =>
                  rw [hentry] at ht
                  refine ih (hbelow _ (Entries.mem_of_find?_eq_some hentry)) ?_ ht
                  exact List.forall_mem_cons.mpr ⟨.folder hdistinct hnamed hbelow, habove⟩

theorem Regular.at?
    (h : tree.Regular)
    {path : String}
    {t : FileTree}
    (ht : tree.at? path = .ok t) :
    t.Regular := by
  rw [FileTree.at?] at ht
  split at ht
  · cases ht
  · exact h.walk (List.forall_mem_nil _) ht

end Regular

/-! ## Names and the path that they make up -/

section Paths

variable {names names' : List String}

theorem splitText_path
    (hnames : ∀ name ∈ names, IsName name)
    (hne : names ≠ []) :
    Text.splitText '/' ("/".intercalate names) = names :=
  Text.splitText_intercalate hne fun name hname => (hnames name hname).2.2

/-- Different names make up different paths. -/
theorem path_inj
    (hnames : ∀ name ∈ names, IsName name)
    (hnames' : ∀ name ∈ names', IsName name)
    (h : "/".intercalate names = "/".intercalate names') :
    names = names' := by
  -- The empty path has one segment, which is no name.
  have hnil : ∀ {names : List String}, (∀ name ∈ names, IsName name) →
      "/".intercalate names = "" → names = [] := by
    intro names hnames hempty
    rcases eq_or_ne names [] with hnil | hne
    · exact hnil
    · have hsegments := splitText_path hnames hne
      rw [hempty] at hsegments
      exact absurd (hnames "" (hsegments ▸ List.mem_singleton_self "")) (by decide)
  rcases eq_or_ne names [] with rfl | hne
  · exact (hnil hnames' h.symm).symm
  · rcases eq_or_ne names' [] with rfl | hne'
    · exact hnil hnames h
    · rw [← splitText_path hnames hne, h, splitText_path hnames' hne']

theorem not_mem_above
    (hnames : ∀ name ∈ names, IsName name) :
    ".." ∉ names :=
  fun hmem => (hnames _ hmem).2.1 rfl

theorem names_eq_self
    (hnames : ∀ name ∈ names, IsName name) :
    FileTree.names names = names :=
  List.filter_eq_self.mpr fun name hname => by simpa using (hnames name hname).1

/-- Names are walked from one folder into the next. -/
theorem walk_names_eq_file_iff
    (hnames : ∀ name ∈ names, IsName name)
    {tree : FileTree}
    {content : ByteArray} :
    walk [] tree names = .ok (.file content) ↔ tree.content? names = some content := by
  rw [walk_eq_file_iff (not_mem_above hnames), names_eq_self hnames, and_iff_left_iff_imp]
  exact fun _ name hname => (hnames name (List.mem_of_getLast? hname)).1

end Paths

/-! ## The texts of a tree -/

/-- The text of the file that names lead to. -/
def textOf? (tree : FileTree) (names : List String) : Option String :=
  (tree.content? names).bind String.fromUTF8?

/-- The texts of all files of a tree under their paths. -/
def texts (tree : FileTree) : Entries String :=
  Entries.ofList (tree.paths.filterMap fun names =>
    (tree.textOf? names).map fun s => ("/".intercalate names, s))

/-- A text is found under the path that the names of its file make up. -/
theorem find?_texts
    {tree : FileTree}
    (h : tree.Regular)
    {names : List String}
    (hnames : ∀ name ∈ names, IsName name) :
    Entries.find? ("/".intercalate names) tree.texts = tree.textOf? names := by
  have hpaths : ∀ path ∈ tree.paths, ∀ name ∈ path, IsName name := by
    intro path hpath
    obtain ⟨content, hcontent⟩ := Option.isSome_iff_exists.mp ((mem_paths_iff h).mp hpath)
    exact isName_of_content? h hcontent
  have hdistinct : (Entries.keys (tree.paths.filterMap fun names =>
      (tree.textOf? names).map fun s => ("/".intercalate names, s))).Nodup := by
    refine List.pairwise_map.mpr (List.pairwise_filterMap.mpr ?_)
    refine (paths_nodup h).imp_of_mem fun hpath hpath' hne e he e' he' heq => hne ?_
    obtain ⟨_, _, rfl⟩ := Option.map_eq_some_iff.mp he
    obtain ⟨_, _, rfl⟩ := Option.map_eq_some_iff.mp he'
    exact path_inj (hpaths _ hpath) (hpaths _ hpath') heq
  refine Option.ext fun s => ?_
  rw [texts, Entries.find?_eq_some_iff (Entries.ofList_ordered _).keys_nodup,
    (Entries.ofList_perm hdistinct).mem_iff, List.mem_filterMap]
  simp only [Option.map_eq_some_iff, Prod.mk.injEq]
  constructor
  · rintro ⟨path, hpath, s', hs, heq, rfl⟩
    rwa [path_inj hnames (hpaths path hpath) heq.symm]
  · intro hs
    obtain ⟨content, hcontent, _⟩ := Option.bind_eq_some_iff.mp hs
    exact ⟨names, (mem_paths_iff h).mpr (Option.isSome_iff_exists.mpr ⟨content, hcontent⟩), s, hs,
      rfl, rfl⟩

/-! ## Paths taken from a folder on -/

/-- The tree that a folder holds; an empty path is the folder at hand. -/
def rootAt (files : FileTree) (root : String) : Except FileFault FileTree :=
  if root.isEmpty then .ok files else files.at? root

theorem Regular.rootAt
    {files : FileTree}
    (h : files.Regular)
    {root : String}
    {t : FileTree}
    (ht : files.rootAt root = .ok t) :
    t.Regular := by
  rw [FileTree.rootAt] at ht
  split at ht
  · cases ht
    exact h
  · exact h.at? ht

/-- A path is walked from the folder that it is taken from. -/
theorem at?_under
    (files : FileTree)
    (root : String)
    {path : String}
    (hne : path ≠ "")
    (hrelative : path.toList.head? ≠ some '/')
    (hdown : ".." ∉ Text.splitText '/' path) :
    files.at? (under root path) =
      (files.rootAt root).bind fun t => walk [] t (Text.splitText '/' path) := by
  have hpath : path.isEmpty = false := by simp [Bool.eq_false_iff, String.isEmpty_iff, hne]
  rw [under, rootAt]
  by_cases hroot : root = ""
  · subst hroot
    rw [if_pos (.inr rfl), at?, hpath, if_neg (by simpa using hrelative)]
    rfl
  · have hroot' : root.isEmpty = false := by simp [Bool.eq_false_iff, String.isEmpty_iff, hroot]
    rw [if_neg (by simp [hrelative, hroot']), hroot', if_neg Bool.false_ne_true]
    split
    · rename_i hslash
      -- The folder before the slash is the one that the path is taken from, unless it is a file.
      obtain ⟨front, hfront⟩ := List.getLast?_eq_some_iff.mp hslash
      have hsplit : root = String.ofList front ++ "/" := by
        rw [← String.toList_inj, hfront, String.toList_append, String.toList_ofList]
        rfl
      by_cases hnil : String.ofList front = ""
      · rw [hsplit, hnil]
        simp [at?, String.toList_append, Except.bind]
      · have hsame : root = String.ofList front ++ "/" ++ "" := by rw [hsplit, String.append_empty]
        rw [hsame, at?_append files hnil (by decide), String.append_empty,
          at?_append files hnil hdown]
        cases files.at? (String.ofList front) with
        | error fault => rfl
        | ok t =>
            obtain ⟨first, rest, hsegments⟩ :=
              List.exists_cons_of_ne_nil (l := Text.splitText '/' path)
                (by simp [Text.splitText, Text.split_ne_nil])
            cases t with
            | file content => rw [hsegments]; rfl
            | folder entries => rfl
    · exact at?_append files hroot hdown

/-- A path of names is walked name by name. -/
theorem at?_under_names
    (files : FileTree)
    (root : String)
    {names : List String}
    (hnames : ∀ name ∈ names, IsName name)
    (hne : names ≠ []) :
    files.at? (under root ("/".intercalate names)) =
      (files.rootAt root).bind fun t => walk [] t names := by
  have hsegments := splitText_path hnames hne
  have hpath : "/".intercalate names ≠ "" := fun hempty =>
    hne (path_inj hnames (List.forall_mem_nil _) hempty)
  have hrelative : ("/".intercalate names).toList.head? ≠ some '/' := by
    intro hhead
    obtain ⟨rest, hrest⟩ := List.head?_eq_some_iff.mp hhead
    rw [Text.splitText, hrest, Text.split, if_pos rfl, List.map_cons] at hsegments
    exact absurd (hnames "" (hsegments ▸ List.mem_cons_self)) (by decide)
  have hdown : ".." ∉ Text.splitText '/' ("/".intercalate names) := by
    rw [hsegments]
    exact not_mem_above hnames
  rw [at?_under files root hpath hrelative hdown, hsegments]

end FileTree

/-! ## Documents -/

/-- The name of a document: something, a dot, and one of the three extensions in any case. -/
def NamesDocument (name : String) : Prop :=
  ∃ stem extension, stem ≠ "" ∧ name = stem ++ "." ++ extension ∧ '.' ∉ extension.toList ∧
    Text.lowerText extension ∈ documentExtensions

theorem extension?_eq_some_iff
    {name extension : String} :
    extension? name = some extension ↔
      ∃ stem, stem ≠ "" ∧ name = stem ++ "." ++ extension ∧ '.' ∉ extension.toList := by
  have hdot : ("." : String).toList = ['.'] := rfl
  rw [extension?]
  constructor
  · intro h
    split at h
    · rename_i c front after hlast
      cases h
      obtain ⟨hname, hafter⟩ := Text.getLast?_cuts_eq_some_iff.mp hlast
      refine ⟨String.ofList (c :: front), ?_, ?_, by rwa [String.toList_ofList]⟩
      · simp [← String.toList_eq_nil_iff]
      · rw [← String.toList_inj, hname]
        simp [String.toList_append, hdot]
    · cases h
  · rintro ⟨stem, hstem, rfl, hextension⟩
    obtain ⟨c, front, hcons⟩ := List.exists_cons_of_ne_nil
      (mt String.toList_eq_nil_iff.mp hstem)
    have hlast : (Text.cuts '.' (stem ++ "." ++ extension).toList).getLast? =
        some (stem.toList, extension.toList) :=
      Text.getLast?_cuts_eq_some_iff.mpr ⟨by simp [String.toList_append, hdot], hextension⟩
    rw [hlast, hcons]
    simp [String.ofList_toList]

theorem isDocument_iff
    {name : String} :
    isDocument name = true ↔ NamesDocument name := by
  rw [isDocument, NamesDocument]
  cases hextension : extension? name with
  | some extension =>
      obtain ⟨stem, hstem, hname, hplain⟩ := extension?_eq_some_iff.mp hextension
      rw [List.contains_iff_mem]
      constructor
      · exact fun hknown => ⟨stem, extension, hstem, hname, hplain, hknown⟩
      · rintro ⟨stem', extension', hstem', hname', hplain', hknown⟩
        have hsame := extension?_eq_some_iff.mpr ⟨stem', hstem', hname', hplain'⟩
        rw [hextension] at hsame
        rwa [Option.some.inj hsame]
  | none =>
      refine iff_of_false Bool.false_ne_true ?_
      rintro ⟨stem, extension, hstem, hname, hplain, _⟩
      rw [extension?_eq_some_iff.mpr ⟨stem, hstem, hname, hplain⟩] at hextension
      cases hextension

/-- The paths of the documents in a folder, in the order in which they are met. -/
def documentPaths (entries : List (String × FileTree)) : List (List String) :=
  (FileTree.pathsBelow entries).filter fun segments =>
    (segments.getLast?.map isDocument).getD false

section Documents

variable {files : FileTree} (hfiles : files.Regular) {root : String} {e : Environment} {v : Version}
include hfiles

/-- The names that lead to a document are names of entries, and the last one is that of a document. -/
theorem mem_documentPaths_iff
    {entries : List (String × FileTree)}
    (hfolder : files.at? (folderOf root e v) = .ok (.folder entries))
    {names : List String} :
    names ∈ documentPaths entries ↔ (files.contentBelow? (folderOf root e v) names).isSome ∧
      ∃ folders name, names = folders ++ [name] ∧ NamesDocument name := by
  have hpaths : FileTree.pathsBelow entries = FileTree.paths (.folder entries) := by
    rw [FileTree.paths]
  rw [documentPaths, List.mem_filter, hpaths, FileTree.mem_paths_iff (hfiles.at? hfolder),
    FileTree.contentBelow?, hfolder]
  refine and_congr_right fun _ => ?_
  rcases List.eq_nil_or_concat names with rfl | ⟨folders, name, rfl⟩
  · simp
  · simp [isDocument_iff]

theorem isName_of_contentBelow?
    {names : List String}
    (h : (files.contentBelow? (folderOf root e v) names).isSome) :
    ∀ name ∈ names, FileTree.IsName name := by
  obtain ⟨content, hcontent⟩ := Option.isSome_iff_exists.mp h
  rw [FileTree.contentBelow?] at hcontent
  split at hcontent
  · rename_i t ht
    exact FileTree.isName_of_content? (hfiles.at? ht) hcontent
  · cases hcontent

theorem exists_text_of_contentBelow?
    {names : List String}
    {content : ByteArray}
    (h : files.contentBelow? (folderOf root e v) names = some content) :
    ∃ s, String.fromUTF8? content = some s := by
  rw [FileTree.contentBelow?] at h
  split at h
  · rename_i t ht
    exact FileTree.exists_text_of_content? (hfiles.at? ht) h
  · cases h

/-- Every document is listed once. -/
theorem documents_perm
    {entries : List (String × FileTree)}
    (hfolder : files.at? (folderOf root e v) = .ok (.folder entries)) :
    (documents files root e v).Perm ((documentPaths entries).map ("/".intercalate ·)) := by
  have hnodup : (documentPaths entries).Nodup := by
    have hall := FileTree.paths_nodup (hfiles.at? hfolder)
    rw [FileTree.paths] at hall
    exact hall.filter _
  rw [documents, ← folderOf, hfolder]
  refine Sorted.texts_perm (List.pairwise_map.mpr (hnodup.imp_of_mem ?_))
  intro names names' hnames hnames' hne heq
  exact hne (FileTree.path_inj
    (isName_of_contentBelow? hfiles ((mem_documentPaths_iff hfiles hfolder).mp hnames).1)
    (isName_of_contentBelow? hfiles ((mem_documentPaths_iff hfiles hfolder).mp hnames').1) heq)

theorem mem_documents_iff
    {path : String} :
    path ∈ documents files root e v ↔
      ∃ folders name, path = "/".intercalate (folders ++ [name]) ∧ NamesDocument name ∧
        (files.contentBelow? (folderOf root e v) (folders ++ [name])).isSome := by
  cases hplace : files.at? (folderOf root e v) with
  | ok t =>
      cases t with
      | folder entries =>
          rw [(documents_perm hfiles hplace).mem_iff, List.mem_map]
          constructor
          · rintro ⟨names, hnames, rfl⟩
            obtain ⟨hsome, folders, name, rfl, hname⟩ :=
              (mem_documentPaths_iff hfiles hplace).mp hnames
            exact ⟨folders, name, rfl, hname, hsome⟩
          · rintro ⟨folders, name, rfl, hname, hsome⟩
            exact ⟨_, (mem_documentPaths_iff hfiles hplace).mpr ⟨hsome, folders, name, rfl, hname⟩,
              rfl⟩
      | file content =>
          rw [documents, ← folderOf, hplace]
          refine iff_of_false List.not_mem_nil ?_
          rintro ⟨folders, name, _, _, hsome⟩
          rw [FileTree.contentBelow?, hplace] at hsome
          cases folders <;> cases hsome
  | error fault =>
      rw [documents, ← folderOf, hplace]
      refine iff_of_false List.not_mem_nil ?_
      rintro ⟨folders, name, _, _, hsome⟩
      rw [FileTree.contentBelow?, hplace] at hsome
      cases hsome

omit hfiles in
theorem documents_pairwise
    (files : FileTree)
    (root : String)
    (e : Environment)
    (v : Version) :
    (documents files root e v).Pairwise (· < ·) := by
  rw [documents]
  split
  · exact Sorted.texts_pairwise _
  · exact List.Pairwise.nil

end Documents

/-! ## Files and memory -/

/-- The texts of the files below a folder, under their paths from there. -/
def FileTree.textsBelow (files : FileTree) (root : String) : Entries String :=
  match files.rootAt root with
  | .ok t => t.texts
  | .error _ => []

namespace Request

variable (r : Request) {names : List String}

/-- The names that lead to the document of a request, from the folder of all documents on. -/
theorem location_eq_path
    (hpath : r.path = "/".intercalate names)
    (hne : names ≠ []) :
    r.location = "/".intercalate (r.environment.label :: r.version.label :: names) := by
  rw [location, hpath, String.intercalate_cons_of_ne_nil (List.cons_ne_nil _ _),
    String.intercalate_cons_of_ne_nil hne]
  simp only [String.append_assoc]

theorem isName_of_mem_location
    (hnames : ∀ name ∈ names, FileTree.IsName name) :
    ∀ name ∈ r.environment.label :: r.version.label :: names, FileTree.IsName name := by
  have hlabels : FileTree.IsName r.environment.label ∧ FileTree.IsName r.version.label := by
    cases r.environment <;> cases r.version <;> decide
  exact List.forall_mem_cons.mpr ⟨hlabels.1, List.forall_mem_cons.mpr ⟨hlabels.2, hnames⟩⟩

end Request

namespace Store

/-- A path of names leads to the same text in files as in memory. -/
theorem ofFiles_eq_ofTexts
    {files : FileTree}
    (hfiles : files.Regular)
    (root : String)
    {names : List String}
    (hnames : ∀ name ∈ names, FileTree.IsName name)
    (hne : names ≠ []) :
    ofFiles files root ("/".intercalate names) =
      ofTexts (files.textsBelow root) ("/".intercalate names) := by
  rw [ofFiles, FileTree.at?_under_names files root hnames hne, ofTexts, FileTree.textsBelow]
  cases hroot : files.rootAt root with
  | error fault => rfl
  | ok t =>
      have ht := hfiles.rootAt hroot
      dsimp only [Except.bind]
      rw [FileTree.find?_texts ht hnames, FileTree.textOf?]
      cases hcontent : t.content? names with
      | some content =>
          obtain ⟨s, hs⟩ := FileTree.exists_text_of_content? ht hcontent
          rw [(FileTree.walk_names_eq_file_iff hnames).mpr hcontent]
          simp [FileTree.text, hs]
      | none =>
          dsimp only [Option.bind]
          split
          · rename_i content hfound
            rw [(FileTree.walk_names_eq_file_iff hnames).mp hfound] at hcontent
            cases hcontent
          · rfl

/-- A listed document is opened, from files and from memory, and its text is the same. -/
theorem exists_text_of_listed
    {files : FileTree}
    (hfiles : files.Regular)
    {root : String}
    {r : Request}
    (h : r.path ∈ documents files root r.environment r.version) :
    ∃ text, ofFiles files root r.location = .ok text ∧
      ofTexts (files.textsBelow root) r.location = .ok text := by
  obtain ⟨folders, name, hpath, _, hsome⟩ := (mem_documents_iff hfiles).mp h
  have hnames := isName_of_contentBelow? hfiles hsome
  have hsegments : Text.splitText '/' r.path = folders ++ [name] := by
    rw [hpath, FileTree.splitText_path hnames (by simp)]
  have hsame : ofFiles files root r.location = ofTexts (files.textsBelow root) r.location := by
    rw [r.location_eq_path hpath (by simp)]
    exact ofFiles_eq_ofTexts hfiles root (r.isName_of_mem_location hnames) (by simp)
  -- The file is found, and it holds a text.
  obtain ⟨content, hcontent⟩ := Option.isSome_iff_exists.mp hsome
  have hfound : files.at? (under root r.location) = .ok (.file content) := by
    rw [Request.under_location, FileTree.at?_eq_file_iff (folderOf_ne_empty _ _ _)
      (hsegments ▸ FileTree.not_mem_above hnames), hsegments, FileTree.names_eq_self hnames]
    exact ⟨hcontent, fun name hname => (hnames name (List.mem_of_getLast? hname)).1⟩
  obtain ⟨text, htext⟩ := exists_text_of_contentBelow? hfiles hcontent
  refine ⟨text, ?_, ?_⟩
  · rw [ofFiles, hfound]
    simp [FileTree.text, htext]
  · rw [← hsame, ofFiles, hfound]
    simp [FileTree.text, htext]

/-- The documents of an environment and a version are listed in increasing order, each as often as it
is met, which is once; they are the files below their folder whose last name is that of a document.
A listed document is opened, and a request for it is answered in the same way from files as from
memory. -/
theorem listed_alike
    {files : FileTree}
    (hfiles : files.Regular)
    (root : String)
    (e : Environment)
    (v : Version) :
    (documents files root e v).Pairwise (· < ·) ∧
      (∀ entries, files.at? (folderOf root e v) = .ok (.folder entries) →
        (documents files root e v).Perm ((documentPaths entries).map ("/".intercalate ·))) ∧
      (∀ path, path ∈ documents files root e v ↔
        ∃ folders name, path = "/".intercalate (folders ++ [name]) ∧ NamesDocument name ∧
          (files.contentBelow? (folderOf root e v) (folders ++ [name])).isSome) ∧
      ∀ path ∈ documents files root e v, ∀ overrides,
        (∃ text, ofFiles files root (Request.location ⟨e, v, path, overrides⟩) = .ok text) ∧
          ∀ c, (ofFiles files root).resolve ⟨e, v, path, overrides⟩ c =
            (ofTexts (files.textsBelow root)).resolve ⟨e, v, path, overrides⟩ c := by
  refine ⟨documents_pairwise files root e v, fun entries hfolder => documents_perm hfiles hfolder,
    fun path => mem_documents_iff hfiles, ?_⟩
  intro path hpath overrides
  obtain ⟨text, hfile, hmemory⟩ := exists_text_of_listed hfiles
    (r := ⟨e, v, path, overrides⟩) hpath
  refine ⟨⟨text, hfile⟩, fun c => ?_⟩
  cases hcheck : Request.check ⟨e, v, path, overrides⟩ with
  | error fault => rw [resolve_of_check_error hcheck, resolve_of_check_error hcheck]
  | ok _ => rw [resolve_of_check hcheck, resolve_of_check hcheck, hfile, hmemory]

/-- A folder of documents, one of which is in a folder with the name of a document. -/
def shelf : FileTree :=
  .folder [("documents", .folder [("production", .folder [("v2", .folder [
    ("main.yaml", .file "name: ${app}".toUTF8),
    (".yaml", .file "hidden".toUTF8),
    ("parts.json", .folder [
      ("notes.txt", .file "later".toUTF8),
      ("a.b.YML", .file "a: b".toUTF8)])])])])]

theorem shelf_regular :
    shelf.Regular := by
  have hfile : ∀ s : String, (FileTree.file s.toUTF8).Regular :=
    fun s => .file (dif_pos s.isValidUTF8)
  have hfolder : ∀ {entries : List (String × FileTree)}, (Entries.keys entries).Nodup →
      (∀ name ∈ Entries.keys entries, FileTree.IsName name) →
      (∀ t ∈ entries.map Prod.snd, t.Regular) → (FileTree.folder entries).Regular :=
    fun hdistinct hnamed hbelow =>
      .folder hdistinct (fun e he => hnamed _ (List.mem_map_of_mem he))
        (fun e he => hbelow _ (List.mem_map_of_mem he))
  rw [shelf]
  refine hfolder (by decide) (by decide) (List.forall_mem_singleton.mpr ?_)
  refine hfolder (by decide) (by decide) (List.forall_mem_singleton.mpr ?_)
  refine hfolder (by decide) (by decide) (List.forall_mem_singleton.mpr ?_)
  refine hfolder (by decide) (by decide) ?_
  refine List.forall_mem_cons.mpr ⟨hfile _, List.forall_mem_cons.mpr ⟨hfile _,
    List.forall_mem_singleton.mpr ?_⟩⟩
  refine hfolder (by decide) (by decide) ?_
  exact List.forall_mem_cons.mpr ⟨hfile _, List.forall_mem_singleton.mpr (hfile _)⟩

/-- Neither the hidden file nor the folder is listed, and the document in the folder is answered in
the same way from both stores. -/
theorem shelf_listed_alike :
    shelf.Regular ∧
      documents shelf "documents" .production .v2 = ["main.yaml", "parts.json/a.b.YML"] ∧
      ∀ overrides c,
        (ofFiles shelf "documents").resolve
            ⟨.production, .v2, "parts.json/a.b.YML", overrides⟩ c =
          (ofTexts (shelf.textsBelow "documents")).resolve
            ⟨.production, .v2, "parts.json/a.b.YML", overrides⟩ c := by
  have hlisted :
      documents shelf "documents" .production .v2 = ["main.yaml", "parts.json/a.b.YML"] := by
    decide +kernel
  refine ⟨shelf_regular, hlisted, fun overrides c => ?_⟩
  exact ((listed_alike shelf_regular "documents" .production .v2).2.2.2 _ (by simp [hlisted])
    overrides).2 c

end Store
end Provision
