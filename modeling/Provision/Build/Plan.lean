import Provision.Build.Graph

/-!
# Partition plans

Input:
* a build graph and the weight that a partition may have.

Algorithm:
* the build order is cut from the left: a unit goes into the open partition if the weight stays
  within the ceiling; otherwise that partition is closed, and the unit goes into the next one;
* a unit heavier than the ceiling is alone in its partition, and a notice says so;
* weights are added as natural numbers, and sums below `2 ^ 64` are meant.

Results:
* `Plan.cut` is the plan under a ceiling, `Plan.single` the plan with one partition, and
  `Plan.check` tells whether a plan can be built.
-/

namespace Provision

/-- A part of the build order that is built as a whole. -/
structure Partition where
  index : Nat
  name : String
  units : List String
  weight : Nat
  /-- The partition holds one unit that is heavier than the ceiling. -/
  oversized : Bool
  deriving DecidableEq, Inhabited

/-- The notice that a unit is heavier than the ceiling. -/
structure Overflow where
  unit : String
  weight : Nat
  ceiling : Nat
  partition : Nat
  deriving DecidableEq, Inhabited

/-- The partitions of a build, in the order in which they are built. -/
structure Plan where
  ceiling : Nat
  partitions : List Partition
  overflows : List Overflow
  deriving DecidableEq, Inhabited

def Partition.shape : Shape Partition :=
  .record "struct Partition" false
    (.required "index" .size <|
      .required "name" .text <|
      .required "units" (.list .text) <|
      .required "weight" .size <|
      .required "oversized" .bool <|
      .nil)
    { pack := fun (index, name, units, weight, oversized, ()) =>
        ⟨index, name, units, weight, oversized⟩
      unpack := fun x => (x.index, x.name, x.units, x.weight, x.oversized, ()) }

def Overflow.shape : Shape Overflow :=
  .record "struct PartitionOverflow" false
    (.required "unit" .text <|
      .required "weight" .size <|
      .required "ceiling" .size <|
      .required "partition" .size <|
      .nil)
    { pack := fun (unit, weight, ceiling, partition, ()) => ⟨unit, weight, ceiling, partition⟩
      unpack := fun x => (x.unit, x.weight, x.ceiling, x.partition, ()) }

def Overflow.message (o : Overflow) : String :=
  "unit '" ++ o.unit ++ "' has weight " ++ toString o.weight ++ " above the ceiling of " ++
    toString o.ceiling ++ "; placed alone in partition " ++ toString o.partition

namespace Partition

/-- The partition at an index, which holds nothing yet. -/
def opened (index : Nat) : Partition :=
  ⟨index, "partition-" ++ toString index, [], 0, false⟩

/-- The partition with one more unit.  The sum of the weights is meant to stay below `2 ^ 64`. -/
def push (p : Partition) (u : Resource) : Partition :=
  { p with units := p.units ++ [u.id], weight := p.weight + u.weight }

/-- The partition marked as heavier than the ceiling, with the weight of its only unit. -/
def pushOversized (p : Partition) (u : Resource) : Partition :=
  { p with units := p.units ++ [u.id], weight := u.weight, oversized := true }

end Partition

/-- A plan that is being made: the partitions that are closed and the one that is still open. -/
structure Cutting where
  closed : List Partition
  overflows : List Overflow
  current : Partition

namespace Cutting

def start : Cutting := ⟨[], [], .opened 0⟩

/-- Closes the open partition and opens the one at the next index. -/
def close (c : Cutting) : Cutting :=
  { c with closed := c.closed ++ [c.current], current := .opened (c.current.index + 1) }

/-- Closes the open partition unless it holds nothing. -/
def closeFilled (c : Cutting) : Cutting :=
  if c.current.units.isEmpty then c else c.close

/-- Puts a unit that is heavier than the ceiling into a partition of its own, with a notice. -/
def placeAlone (ceiling : Nat) (c : Cutting) (u : Resource) : Cutting :=
  let c := c.closeFilled
  close
    { c with
      overflows := c.overflows ++ [⟨u.id, u.weight, ceiling, c.current.index⟩]
      current := c.current.pushOversized u }

/-- Puts a unit into the open partition, or into the next one if it does not fit.  The sum that is
compared with the ceiling is meant to stay below `2 ^ 64`. -/
def placeWithOthers (ceiling : Nat) (c : Cutting) (u : Resource) : Cutting :=
  let c := if ceiling < c.current.weight + u.weight then c.closeFilled else c
  { c with current := c.current.push u }

def place (ceiling : Nat) (c : Cutting) (u : Resource) : Cutting :=
  if ceiling < u.weight then c.placeAlone ceiling u else c.placeWithOthers ceiling u

/-- The plan once all units are placed. -/
def finish (ceiling : Nat) (c : Cutting) : Plan :=
  ⟨ceiling, c.closeFilled.closed, c.overflows⟩

end Cutting

namespace Plan

def shape : Shape Plan :=
  .record "struct PartitionPlan" false
    (.required "ceiling" .size <|
      .required "partitions" (.list Partition.shape) <|
      .withDefault "overflows" (.list Overflow.shape) [] <|
      .nil)
    { pack := fun (ceiling, partitions, overflows, ()) => ⟨ceiling, partitions, overflows⟩
      unpack := fun x => (x.ceiling, x.partitions, x.overflows, ()) }

/-- The plan that cuts the build order from the left. -/
def cut (g : Graph) (ceiling : Nat) : Except BuildError Plan :=
  if ceiling = 0 then .error .invalidCeiling
  else .ok ((g.order.foldl (Cutting.place ceiling) .start).finish ceiling)

/-- The plan with one partition for all units, whose weights are meant to add up to less than
`2 ^ 64`. -/
def single (g : Graph) : Plan :=
  let all := g.order.foldl Partition.push (.opened 0)
  ⟨max 1 all.weight, if all.units.isEmpty then [] else [all], []⟩

/-- The index of the partition that holds a unit. -/
def partitionOf? (p : Plan) (id : String) : Option Nat :=
  (p.partitions.find? fun part => part.units.contains id).map (·.index)

/-- The names in a plan, each with the position of its partition, in the order of the plan. -/
def places (p : Plan) : List (String × Nat) :=
  p.partitions.zipIdx.flatMap fun e => e.1.units.map fun id => (id, e.2)

/-- The position of the partition that a name is placed in. -/
def placeOf? (places : List (String × Nat)) (id : String) : Option Nat :=
  (places.find? fun e => e.1 == id).map (·.2)

/-- Refuses names that the graph does not know or that were met before. -/
def checkPlaces (g : Graph) : List String → List (String × Nat) → Except BuildError Unit
  | _, [] => .ok ()
  | seen, (id, _) :: rest =>
    match g.unit? id with
    | none => .error (.unitNotFound id)
    | some _ =>
      if seen.contains id then
        .error (.invalidPlan ("unit '" ++ id ++ "' appears in more than one partition"))
      else checkPlaces g (id :: seen) rest

/-- Whether a dependency is placed later than a position, or not at all. -/
def isLate (places : List (String × Nat)) (own : Nat) (dependency : String) : Bool :=
  match placeOf? places dependency with
  | some n => own < n
  | none => true

/-- Refuses units that are not placed, or placed before a dependency. -/
def checkPlacement (places : List (String × Nat)) : List Resource → Except BuildError Unit
  | [] => .ok ()
  | u :: rest =>
    match placeOf? places u.id with
    | none => .error (.invalidPlan ("unit '" ++ u.id ++ "' is in no partition"))
    | some own =>
      match u.dependsOn.find? (isLate places own) with
      | some d =>
        .error (.invalidPlan
          ("unit '" ++ u.id ++ "' is placed before its dependency '" ++ d ++ "'"))
      | none => checkPlacement places rest

/-- Refuses plans that do not place every unit once and after its dependencies. -/
def check (p : Plan) (g : Graph) : Except BuildError Unit := do
  checkPlaces g [] p.places
  checkPlacement p.places g.units

end Plan
end Provision
