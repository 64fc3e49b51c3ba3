import Provision.Build.Report

/-!
# Listings

Input:
* a graph and its plan, or the report of a build.

Algorithm:
* a plan is listed as the numbered units in build order, each with its kind and its dependencies,
  and below them the partitions and the notices;
* a build is listed as the handles and then the failures, each in build order.

Results:
* `Plan.listing` and `Report.listing` are the texts, one line for each item; `Plan.orderedTree` is
  the tree of a plan with its build order.
-/

namespace Provision

def joinLines (ls : List String) : String := String.join (ls.map (· ++ "\n"))

/-- A number with blanks in front, three characters wide or more. -/
def alignedNumber (n : Nat) : String :=
  let digits := toString n
  String.ofList (List.replicate (3 - digits.length) ' ') ++ digits

/-- The line of a unit at a place of the build order, counted from zero. -/
def Resource.line (i : Nat) (u : Resource) : String :=
  "  " ++ alignedNumber (i + 1) ++ ". " ++ u.id ++ " (" ++ u.kind.text ++ ")" ++
    (if u.dependsOn.isEmpty then "" else " after " ++ ", ".intercalate u.dependsOn)

def Partition.line (p : Partition) : String :=
  "  " ++ p.name ++ " weight " ++ toString p.weight ++
    (if p.oversized then " [oversized]" else "") ++ ": " ++ ", ".intercalate p.units

def Overflow.line (o : Overflow) : String := "  note: " ++ o.message

def Handle.line (h : Handle) : String := "  ok        " ++ h.unitId ++ " -> " ++ h.identifier

def Failure.line (f : Failure) : String :=
  match f.reason with
  | .failed message => "  failed    " ++ f.unit ++ ": " ++ message
  | .panicked message => "  panicked  " ++ f.unit ++ ": " ++ message
  | .cancelled dependency => "  cancelled " ++ f.unit ++ " (after " ++ dependency ++ ")"

namespace Plan

/-- The build order and the partitions as text. -/
def listing (p : Plan) (g : Graph) : String :=
  joinLines
    ("Build order:" :: g.order.mapIdx Resource.line ++
      ["", "Partitions (ceiling " ++ toString p.ceiling ++ "):"] ++
      p.partitions.map Partition.line ++ p.overflows.map Overflow.line)

/-- The build order and the plan as one tree. -/
def orderedTree (p : Plan) (g : Graph) : Tree :=
  .ofEntries [("order", .texts g.orderIds), ("plan", shape.write p)]

end Plan

/-- The outcome of a build as text. -/
def Report.listing (r : Report) : String :=
  joinLines
    (("Build " ++ r.buildId ++ " (" ++ toString r.partitions ++ " partitions)") ::
      r.succeeded.map Handle.line ++ r.failed.map Failure.line)

end Provision
