import Provision.Resource
import Provision.Sorted

/-!
# Build order

Input:
* units, in the order in which they are declared.

Algorithm:
* a unit waits for its dependencies, which are counted; it is ready when none is left to wait for;
* of the ready units the one that is declared first is placed next, and the units that wait for it
  wait for one dependency less; this goes on until none is ready;
* the units downstream of a unit are searched from it: a unit found puts its own dependents on the
  stack that were not seen before;
* a unit downstream of itself lies on a cycle; the cycle to report starts at the first such unit,
  and follows the first dependent that leads back.

Results:
* `buildOrder` holds the units in the order in which they are built;
* `downstream` holds the names of the units that depend on a unit directly or through a chain;
* `cycleFrom` gives the names along a cycle, the first one repeated at the end.
-/

namespace Provision

/-- A unit that is not placed yet. -/
structure Waiting where
  /-- The place of the unit among the declared ones. -/
  index : Nat
  unit : Resource
  /-- How many of its dependencies are not placed yet. -/
  missing : Nat

namespace Waiting

/-- The declared units, each waiting for all its dependencies. -/
def ofUnits (units : List Resource) : List Waiting :=
  units.mapIdx fun i u => ⟨i, u, u.dependsOn.length⟩

def isReady (w : Waiting) : Bool := w.missing == 0

/-- The unit after a name was placed that it may wait for. -/
def release (id : String) (w : Waiting) : Waiting :=
  { w with missing := w.missing - w.unit.dependsOn.count id }

/-- The units after a name was placed. -/
def releaseAll (id : String) (waiting : List Waiting) : List Waiting :=
  waiting.map (release id)

/-- Puts units among the ready ones, which are kept in the order in which they are declared. -/
def enqueue (ready freed : List Waiting) : List Waiting :=
  Sorted.insertAllByRank (·.index) ready freed

theorem enqueue_perm
    (ready freed : List Waiting) :
    (enqueue ready freed).Perm (ready ++ freed) :=
  Sorted.insertAllByRank_perm _ ready freed

/-- Units move among the ready ones without loss. -/
theorem enqueue_filter_perm
    (ready waiting : List Waiting) :
    (enqueue ready (waiting.filter fun w => w.isReady) ++
      waiting.filter fun w => !w.isReady).Perm (ready ++ waiting) := by
  refine ((enqueue_perm ready _).append_right _).trans ?_
  rw [List.append_assoc]
  exact (List.filter_append_perm (fun w => w.isReady) waiting).append_left ready

end Waiting

/-- Places the ready units, and the waiting ones as soon as they are ready. -/
def placeFrom (ready waiting : List Waiting) : List Resource :=
  match ready with
  | [] => []
  | next :: ready =>
    let released := Waiting.releaseAll next.unit.id waiting
    next.unit :: placeFrom
      (Waiting.enqueue ready (released.filter fun w => w.isReady))
      (released.filter fun w => !w.isReady)
termination_by ready.length + waiting.length
decreasing_by
  have hlen := (Waiting.enqueue_filter_perm ready
    (Waiting.releaseAll next.unit.id waiting)).length_eq
  simp only [Waiting.releaseAll, List.length_append, List.length_map] at hlen
  simp only [Waiting.releaseAll, List.length_cons]
  omega

/-- The order in which units are built. -/
def buildOrder (units : List Resource) : List Resource :=
  let all := Waiting.ofUnits units
  placeFrom (all.filter fun w => w.isReady) (all.filter fun w => !w.isReady)

/-- The units that depend on a unit directly, in order of declaration. -/
def dependentsOf (units : List Resource) (id : String) : List Resource :=
  units.filter fun u => u.dependsOn.contains id

/-- The names of units that were not seen. -/
def unseen (units : List Resource) (seen : List String) : List String :=
  (units.map (·.id)).filter fun id => !seen.contains id

/-- Names that are seen make the unseen ones fewer. -/
theorem length_unseen_append_lt
    {units : List Resource}
    {seen fresh : List String}
    {id : String}
    (hid : id ∈ unseen units seen)
    (hfresh : id ∈ fresh) :
    (unseen units (seen ++ fresh)).length < (unseen units seen).length := by
  have hsub :
      unseen units (seen ++ fresh) = (unseen units seen).filter fun id => !fresh.contains id := by
    simp only [unseen, List.filter_filter]
    refine List.filter_congr fun x _ => ?_
    by_cases hx : x ∈ fresh <;> simp [hx]
  rw [hsub]
  exact List.length_filter_lt_length_iff_exists.mpr ⟨id, hid, by simp [hfresh]⟩

/-- Goes on searching for the units downstream of the names on a stack. -/
def search (units : List Resource) (stack seen : List String) : List String :=
  match stack with
  | [] => seen
  | id :: stack =>
    let fresh := unseen (dependentsOf units id) seen
    search units (fresh ++ stack) (seen ++ fresh)
termination_by ((unseen units seen).length, stack.length)
decreasing_by
  cases hfresh : unseen (dependentsOf units id) seen with
  | nil =>
      simp only [List.append_nil, List.nil_append]
      exact Prod.Lex.right _ (Nat.lt_succ_self _)
  | cons found rest =>
      have hmem : found ∈ unseen (dependentsOf units id) seen := by
        rw [hfresh]
        exact List.mem_cons_self
      have hfound : found ∈ found :: rest := List.mem_cons_self
      refine Prod.Lex.left _ _ (length_unseen_append_lt ?_ hfound)
      simp only [unseen, dependentsOf, List.mem_filter, List.mem_map] at hmem ⊢
      obtain ⟨⟨u, ⟨hu, _⟩, rfl⟩, hseen⟩ := hmem
      exact ⟨⟨u, hu, rfl⟩, hseen⟩

/-- The names of the units that depend on a unit directly or through a chain. -/
def downstream (units : List Resource) (id : String) : List String :=
  search units [id] []

/-- Whether a unit depends on itself through a chain. -/
def onCycle (units : List Resource) (u : Resource) : Bool :=
  (downstream units u.id).contains u.id

/-- The names met on the way from one name to the next, cut to the cycle that closes first. -/
def follow (next : String → Option String) : Nat → List String → String → List String
  | 0, path, _ => path
  | n + 1, path, id =>
    if path.contains id then path.dropWhile (· != id) ++ [id]
    else
      match next id with
      | some other => follow next n (path ++ [id]) other
      | none => path ++ [id]

/-- The names along a cycle, from a unit on that lies on one. -/
def cycleFrom (units : List Resource) (start : Resource) : List String :=
  let members := (downstream units start.id).filter fun id =>
    (downstream units id).contains start.id
  let next := fun id => ((dependentsOf units id).find? fun u => members.contains u.id).map (·.id)
  follow next (units.length + 1) [] start.id

end Provision
