import Provision.Files

/-!
# Walking file trees

A path without `..` leads downwards only: it does not matter which folders are above the one where
it starts, and whether it leads to a file depends on nothing but the names in it.

**Results.**
* `FileTree.walk_append`: such a path can be walked in two parts.
* `FileTree.walk_eq_file_iff`: the file that such a path leads to is the one under its names.
-/

namespace Provision
namespace FileTree

/-- The content of the file that names lead to, each of them an entry of the folder before. -/
def content? (tree : FileTree) : List String → Option ByteArray
  | [] =>
    match tree with
    | .file content => some content
    | .folder _ => none
  | name :: rest =>
    match tree with
    | .file _ => none
    | .folder entries => (Entries.find? name entries).bind fun t => t.content? rest

/-- Whether a segment stays in a folder. -/
def Stays (segment : String) : Prop := segment = "" ∨ segment = "."

instance (segment : String) : Decidable (Stays segment) :=
  inferInstanceAs (Decidable (segment = "" ∨ segment = "."))

/-- The segments that lead into a folder or to a file. -/
def names (segments : List String) : List String :=
  segments.filter fun s => ¬ Stays s

theorem walk_stays
    {segment : String}
    (h : Stays segment)
    (above : List FileTree)
    (entries : List (String × FileTree))
    (rest : List String) :
    walk above (.folder entries) (segment :: rest) = walk above (.folder entries) rest :=
  if_pos h

theorem walk_name
    {segment : String}
    (h : ¬ Stays segment)
    (hne : segment ≠ "..")
    (above : List FileTree)
    (entries : List (String × FileTree))
    (rest : List String) :
    walk above (.folder entries) (segment :: rest) =
      match Entries.find? segment entries with
      | some t => walk (.folder entries :: above) t rest
      | none => .error .absent :=
  (if_neg h).trans (if_neg hne)

/-- Without `..` the folders above do not matter. -/
theorem walk_above
    {segments : List String}
    (hdown : ".." ∉ segments)
    (above above' : List FileTree)
    (here : FileTree) :
    walk above here segments = walk above' here segments := by
  induction segments generalizing above above' here with
  | nil => rfl
  | cons segment rest ih =>
      obtain ⟨hne, hrest⟩ := not_or.mp (mt List.mem_cons.mpr hdown)
      cases here with
      | file content => rfl
      | folder entries =>
          by_cases hstays : Stays segment
          · rw [walk_stays hstays, walk_stays hstays, ih hrest above above']
          · rw [walk_name hstays (Ne.symm hne), walk_name hstays (Ne.symm hne)]
            cases Entries.find? segment entries with
            | none => rfl
            | some t => exact ih hrest _ _ t

/-- The second part of a path is walked from where the first one leads. -/
theorem walk_append
    {second : List String}
    (hdown : ".." ∉ second)
    (first : List String)
    (above : List FileTree)
    (here : FileTree) :
    walk above here (first ++ second) =
      (walk above here first).bind fun t => walk [] t second := by
  induction first generalizing above here with
  | nil => exact walk_above hdown above [] here
  | cons segment rest ih =>
      cases here with
      | file content => rfl
      | folder entries =>
          simp only [List.cons_append, walk]
          split
          · exact ih above _
          · split
            · cases above with
              | nil => rfl
              | cons parent above => exact ih above parent
            · cases Entries.find? segment entries with
              | none => rfl
              | some t => exact ih _ t

theorem names_cons_of_stays
    {segment : String}
    (h : Stays segment)
    (rest : List String) :
    names (segment :: rest) = names rest :=
  List.filter_cons_of_neg (by simpa using h)

theorem names_cons
    {segment : String}
    (h : ¬ Stays segment)
    (rest : List String) :
    names (segment :: rest) = segment :: names rest :=
  List.filter_cons_of_pos (by simpa using h)

/-- A file is at the end of a path only if the path names it last. -/
theorem names_ne_nil
    {segments : List String}
    (hlast : ∀ s ∈ segments.getLast?, ¬ Stays s)
    (hne : segments ≠ []) :
    names segments ≠ [] := by
  intro hnone
  have hlast' := hlast _ (List.getLast?_eq_some_getLast hne)
  have hall := List.filter_eq_nil_iff.mp hnone _ (List.getLast_mem hne)
  exact hall (by simpa using hlast')

/-- A path without `..` leads to the file under its names, unless it goes on after a file. -/
theorem walk_eq_file_iff
    {segments : List String}
    (hdown : ".." ∉ segments)
    {above : List FileTree}
    {here : FileTree}
    {content : ByteArray} :
    walk above here segments = .ok (.file content) ↔
      here.content? (names segments) = some content ∧ ∀ s ∈ segments.getLast?, ¬ Stays s := by
  induction segments generalizing above here with
  | nil => cases here <;> simp [walk, content?, names]
  | cons segment rest ih =>
      obtain ⟨hne, hrest⟩ := not_or.mp (mt List.mem_cons.mpr hdown)
      have hlater : rest ≠ [] → (segment :: rest).getLast? = rest.getLast? := by
        intro hsome
        rw [List.getLast?_cons, List.getLast?_eq_some_getLast hsome, Option.getD_some]
      cases here with
      | file found =>
          refine iff_of_false (by simp [walk]) ?_
          rintro ⟨hfound, hlast⟩
          obtain ⟨name, names', hnames⟩ :=
            List.exists_cons_of_ne_nil (names_ne_nil hlast (List.cons_ne_nil segment rest))
          rw [hnames] at hfound
          cases hfound
      | folder entries =>
          by_cases hstays : Stays segment
          · rw [names_cons_of_stays hstays, walk_stays hstays, ih hrest]
            by_cases hend : rest = []
            · simp [hend, names, content?]
            · rw [hlater hend]
          · rw [names_cons hstays, walk_name hstays (Ne.symm hne), content?]
            cases Entries.find? segment entries with
            | none => simp
            | some t =>
                dsimp only
                rw [ih hrest, Option.bind_some]
                by_cases hend : rest = []
                · simp [hend, hstays]
                · rw [hlater hend]

end FileTree
end Provision
