import Provision.Build.Registry
import Provision.Build.Report

/-!
# Builds on their way

Input:
* the units of a partition, the calls of builders in flight, and what became of earlier units.

Algorithm:
* the pending units are looked at one after the other: a unit with a failed dependency is
  cancelled, a unit whose dependencies all have handles is started as long as there is capacity, and
  any other unit is passed over;
* the end of a call is recorded under the unit that was started with its number, and the pending
  units are looked at from the first one again;
* a unit that is left when no call is in flight is cancelled for the first dependency without a
  handle.

Results:
* `visit`, `join` and `abandon` are the steps of a build, `enter` begins a partition, and `report`
  is the report of a build that came to its end.
-/

namespace Provision

structure Call (β : Type) where
  unit : Resource
  builder : β
  /-- The handles of the direct dependencies. -/
  dependencies : Handles

/-- How a call of a builder ends. -/
inductive Outcome where
  | built (handle : Handle)
  | failed (error : BuildError)
  | panicked (message : String)

structure Task (β : Type) where
  /-- The number that the call was started with. -/
  number : Nat
  call : Call β

structure Run (β : Type) where
  /-- The handles by the names of the units they were built for. -/
  handles : Entries Handle
  /-- The names of the units that failed or were cancelled. -/
  failed : List String
  /-- The handles in the order in which they were built. -/
  succeeded : List Handle
  /-- What is reported about the units that failed or were cancelled. -/
  failures : List Failure
  /-- The units of the current partition that are not started yet. -/
  pending : List Resource
  /-- The place of the pending unit that is looked at next. -/
  cursor : Nat
  /-- The calls in flight, in the order in which they were started. -/
  tasks : List (Task β)
  /-- The units of the calls in flight, by the numbers of the calls. -/
  inFlight : List (Nat × Resource)
  nextTask : Nat
  /-- The calls of builders so far, in the order in which they were made. -/
  calls : List (Call β)
  /-- The calls that ended, in the order in which their ends were recorded. -/
  returned : List (Call β × Outcome)
  /-- The error that ends the build without a report. -/
  fault : Option BuildError

namespace Run

variable {β : Type}

/-- Nothing is built yet; a build that was refused does not begin. -/
def start (validated : Except BuildError Unit) : Run β where
  handles := []
  failed := []
  succeeded := []
  failures := []
  pending := []
  cursor := 0
  tasks := []
  inFlight := []
  nextTask := 0
  calls := []
  returned := []
  fault :=
    match validated with
    | .ok () => none
    | .error e => some e

def enter (run : Run β) (g : Graph) (p : Partition) : Run β :=
  { run with
    pending := p.units.filterMap g.unit?
    cursor := 0
    tasks := []
    inFlight := []
    nextTask := 0 }

/-- Whether a unit failed or was cancelled. -/
def hasFailed (run : Run β) (id : String) : Bool := run.failed.contains id

def hasHandle (run : Run β) (id : String) : Bool := Entries.hasKey id run.handles

/-- Whether one more builder may be called. -/
def hasCapacity (limit : Option Nat) (run : Run β) : Bool :=
  match limit with
  | some n => run.tasks.length < n
  | none => true

/-- Records that a unit has no handle. -/
def fail (run : Run β) (id : String) (reason : FailureReason) : Run β :=
  { run with failed := run.failed ++ [id], failures := run.failures ++ [⟨id, reason⟩] }

/-- Takes away the pending unit that is looked at. -/
def take (run : Run β) : Run β := { run with pending := run.pending.eraseIdx run.cursor }

/-- The handles of the direct dependencies of a unit. -/
def dependenciesOf (run : Run β) (u : Resource) : Handles :=
  (u.dependsOn.filterMap fun d => Entries.find? d run.handles).foldl Handles.add []

def launch (run : Run β) (u : Resource) (builder : β) : Run β :=
  let call : Call β := ⟨u, builder, run.dependenciesOf u⟩
  { run with
    tasks := run.tasks ++ [⟨run.nextTask, call⟩]
    inFlight := run.inFlight ++ [(run.nextTask, u)]
    nextTask := run.nextTask + 1
    calls := run.calls ++ [call] }

/-- Looks at a pending unit: cancels it, starts it or passes it over. -/
def visit (registry : Registry β) (limit : Option Nat) (run : Run β) (u : Resource) : Run β :=
  match u.dependsOn.find? run.hasFailed with
  | some d => run.take.fail u.id (.cancelled d)
  | none =>
    if u.dependsOn.all run.hasHandle && run.hasCapacity limit then
      match registry.require u with
      | .ok builder => run.take.launch u builder
      | .error e => { run.take with fault := some e }
    else { run with cursor := run.cursor + 1 }

/-- Records how the call of a unit ended. -/
def settle (run : Run β) (u : Resource) : Outcome → Run β
  | .built h =>
    { run with
      handles := Entries.insert u.id h run.handles
      succeeded := run.succeeded ++ [h] }
  | .failed e => run.fail u.id (.failed e.message)
  | .panicked message => run.fail u.id (.panicked message)

def join (run : Run β) (i : Fin run.tasks.length) (outcome : Outcome) : Run β :=
  let task := run.tasks.get i
  let ended :=
    { run with
      tasks := run.tasks.eraseIdx i
      cursor := 0
      returned := run.returned ++ [(task.call, outcome)] }
  match run.inFlight.lookup task.number with
  | some u =>
    { ended with inFlight := run.inFlight.filter fun e => e.1 != task.number }.settle u outcome
  | none => ended

/-- Cancels the first of the units that never became ready. -/
def abandon (run : Run β) (u : Resource) : Run β :=
  let missing := u.dependsOn.find? fun d => !run.hasHandle d
  { run with pending := run.pending.tail }.fail u.id (.cancelled (missing.getD ""))

/-- A bound on how often units can still be started and calls end. -/
def remaining (run : Run β) : Nat := 2 * run.pending.length + run.tasks.length

/-- How many pending units are still to be looked at. -/
def ahead (run : Run β) : Nat := run.pending.length - run.cursor

theorem length_pending_take
    {run : Run β}
    {u : Resource}
    (hu : run.pending[run.cursor]? = some u) :
    run.take.pending.length + 1 = run.pending.length := by
  obtain ⟨hlt, _⟩ := List.getElem?_eq_some_iff.mp hu
  have hlen := List.length_eraseIdx_of_lt hlt
  simp only [take]
  omega

/-- A unit that is looked at is taken away or passed over. -/
theorem visit_decreases
    {registry : Registry β}
    {limit : Option Nat}
    {run : Run β}
    {u : Resource}
    (hu : run.pending[run.cursor]? = some u) :
    (run.visit registry limit u).remaining < run.remaining ∨
      (run.visit registry limit u).remaining = run.remaining ∧
        (run.visit registry limit u).ahead < run.ahead := by
  have htake := length_pending_take hu
  obtain ⟨hlt, _⟩ := List.getElem?_eq_some_iff.mp hu
  unfold visit
  split
  · left
    simp only [remaining, fail, take] at *
    omega
  · split
    · left
      split
      · simp only [remaining, launch, take, List.length_append, List.length_singleton] at *
        omega
      · simp only [remaining, take] at *
        omega
    · right
      refine ⟨rfl, ?_⟩
      simp only [ahead]
      omega

/-- The end of a call takes it away. -/
theorem remaining_join
    (run : Run β)
    (i : Fin run.tasks.length)
    (outcome : Outcome) :
    (run.join i outcome).remaining < run.remaining := by
  have hlen := List.length_eraseIdx_of_lt i.isLt
  have hpos := i.isLt
  simp only [join]
  split
  · cases outcome <;> simp only [settle, fail, remaining] <;> omega
  · simp only [remaining]
    omega

theorem remaining_abandon
    {run : Run β}
    {u : Resource}
    (hu : run.pending.head? = some u) :
    (run.abandon u).remaining < run.remaining := by
  obtain ⟨rest, hrest⟩ := List.head?_eq_some_iff.mp hu
  simp only [abandon, fail, remaining, hrest, List.tail_cons, List.length_cons]
  omega

end Run

/-- The name and the times of a build. -/
structure Stamp where
  buildId : String
  startedAt : Option Instant
  completedAt : Option Instant

/-- The report of a build that came to its end. -/
def Run.report {β : Type} (run : Run β) (stamp : Stamp) (g : Graph) (p : Plan) : Report :=
  let rank := fun id => g.orderIds.findIdx (· == id)
  { buildId := stamp.buildId
    state := if run.failures.isEmpty then .completed else .failed
    order := g.orderIds
    partitions := p.partitions.length
    overflows := p.overflows
    succeeded := Sorted.byRank (fun h => rank h.unitId) run.succeeded
    failed := Sorted.byRank (fun f => rank f.unit) run.failures
    startedAt := stamp.startedAt
    completedAt := stamp.completedAt }

end Provision
