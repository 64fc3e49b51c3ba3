import Provision.Build.Order

/-!
# Build graphs

Input:
* the units of a deployment, in the order in which they are declared.

Algorithm:
* names and weights are checked first, then the dependencies, then that there is no cycle; the first
  fault found is reported;
* a graph holds units that passed; its order is the build order of its units.

Results:
* `Graph.ofUnits` accepts or refuses units; `dependencies`, `dependents` and `transitiveDependents`
  answer questions about an accepted graph.
-/

namespace Provision

/-- Refuses a name that was met before and a weight of zero, whichever comes first. -/
def checkNames : List String → List Resource → Except BuildError Unit
  | _, [] => .ok ()
  | seen, u :: rest =>
    if seen.contains u.id then .error (.duplicateUnit u.id)
    else if u.weight = 0 then .error (.invalidWeight u.id)
    else checkNames (u.id :: seen) rest

/-- Refuses dependencies that are not among the known names. -/
def checkDependencies (known : List String) : List Resource → Except BuildError Unit
  | [] => .ok ()
  | u :: rest =>
    match u.dependsOn.find? fun d => !known.contains d with
    | some d => .error (.unknownDependency u.id d)
    | none => checkDependencies known rest

def checkAcyclic (units : List Resource) : Except BuildError Unit :=
  match units.find? (onCycle units) with
  | none => .ok ()
  | some start => .error (.cyclicDependency (cycleFrom units start))

/-- Refuses units that cannot be built in any order. -/
def checkUnits (units : List Resource) : Except BuildError Unit := do
  checkNames [] units
  checkDependencies (units.map (·.id)) units
  checkAcyclic units

/-- Units that can be built one after the other. -/
structure Graph where
  units : List Resource
  checked : checkUnits units = .ok ()

namespace Graph

/-- The graph of units, if they can be built. -/
def ofUnits (units : List Resource) : Except BuildError Graph :=
  match h : checkUnits units with
  | .ok () => .ok ⟨units, h⟩
  | .error e => .error e

/-- The units in the order in which they are built. -/
def order (g : Graph) : List Resource := buildOrder g.units

/-- The names of the units in the order in which they are built. -/
def orderIds (g : Graph) : List String := g.order.map (·.id)

def unit? (g : Graph) (id : String) : Option Resource := g.units.find? fun u => u.id == id

/-- The position of a unit in the build order. -/
def position? (g : Graph) (id : String) : Option Nat := g.orderIds.findIdx? (· == id)

/-- A unit by its name, or an error. -/
def require (g : Graph) (id : String) : Except BuildError Resource :=
  match g.unit? id with
  | some u => .ok u
  | none => .error (.unitNotFound id)

/-- The names of the direct dependencies of a unit, in order of declaration. -/
def dependencies (g : Graph) (id : String) : Except BuildError (List String) := do
  let u ← g.require id
  return (g.units.filter fun d => u.dependsOn.contains d.id).map (·.id)

/-- The names of the units that depend on a unit directly, in order of declaration. -/
def dependents (g : Graph) (id : String) : Except BuildError (List String) := do
  let u ← g.require id
  return (dependentsOf g.units u.id).map (·.id)

/-- The names of the units that depend on a unit directly or through a chain, in build order. -/
def transitiveDependents (g : Graph) (id : String) : Except BuildError (List String) := do
  let u ← g.require id
  let found := downstream g.units u.id
  return (g.order.filter fun v => found.contains v.id).map (·.id)

end Graph
end Provision
