import Provision.Text.Split

/-!
# Parts of a path

Input:
* a path, whose segments stand between slashes.

Algorithm:
* a path that starts with a slash starts at the root, and one whose first segment is `.` says that it
  starts in the folder at hand;
* among the segments an empty one or `.` counts for nothing, `..` leads to the folder above, and any
  other is a name.

Results:
* `pathParts` gives the parts of a path; which segments and which start there are can be told from
  them (`above_mem_pathParts_iff`, `root_mem_pathParts_iff`).
-/

namespace Provision
namespace Text

/-- What a path says one after the other. -/
inductive PathPart where
  | root
  /-- The folder at hand, where the path starts. -/
  | here
  | above
  | name (segment : String)
  deriving DecidableEq

/-- What a segment says, whether or not it is the first one. -/
def segmentPart? (segment : String) : Option PathPart :=
  if segment = "" ∨ segment = "." then none
  else if segment = ".." then some .above
  else some (.name segment)

/-- What a path says of where it starts. -/
def pathStart (path : String) : List PathPart :=
  if path.toList.head? = some '/' then [.root]
  else if (splitText '/' path).head? = some "." then [.here]
  else []

def pathParts (path : String) : List PathPart :=
  pathStart path ++ (splitText '/' path).filterMap segmentPart?

theorem segmentPart?_eq_above_iff
    {segment : String} :
    segmentPart? segment = some .above ↔ segment = ".." := by
  unfold segmentPart?
  split
  · rename_i h
    rcases h with rfl | rfl <;> simp
  · split <;> simp_all

theorem segmentPart?_ne_root
    (segment : String) :
    segmentPart? segment ≠ some .root := by
  unfold segmentPart?
  split
  · exact nofun
  · split <;> exact nofun

/-- A path leads to a folder above iff a segment of it does. -/
theorem above_mem_pathParts_iff
    {path : String} :
    .above ∈ pathParts path ↔ ".." ∈ splitText '/' path := by
  have hstart : .above ∉ pathStart path := by
    unfold pathStart
    split
    · simp
    · split <;> simp
  simp [pathParts, hstart, segmentPart?_eq_above_iff]

/-- A path starts at the root iff its first character is a slash. -/
theorem root_mem_pathParts_iff
    {path : String} :
    .root ∈ pathParts path ↔ path.toList.head? = some '/' := by
  have hsegments : .root ∉ (splitText '/' path).filterMap segmentPart? := by
    simp [segmentPart?_ne_root]
  rw [pathParts, List.mem_append, or_iff_left hsegments, pathStart]
  split
  · simp_all
  · split <;> simp_all

end Text
end Provision
