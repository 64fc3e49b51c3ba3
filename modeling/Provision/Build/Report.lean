import Provision.Build.Plan
import Provision.Time.Instant

/-!
# Build reports

Input:
* the units of a build in build order, and what became of each of them.

Algorithm:
* handles and failures are kept in the build order; a handle whose name is not in the order comes
  last.

Results:
* `Report.handle?` and `Report.failure?` look up one unit, `Report.rootFailures` tells the failures
  that are no cancellations, and `Failure.error` is the error that a failure stands for.
-/

namespace Provision

inductive BuildState where
  | pending
  | running
  | completed
  | failed
  deriving DecidableEq, Inhabited

inductive FailureReason where
  /-- The builder returned an error. -/
  | failed (message : String)
  /-- The builder broke down. -/
  | panicked (message : String)
  /-- The builder was not called, because a dependency has no handle. -/
  | cancelled (dependency : String)
  deriving DecidableEq, Inhabited

structure Failure where
  unit : String
  reason : FailureReason
  deriving DecidableEq, Inhabited

namespace Failure

def isCancelled (f : Failure) : Bool :=
  match f.reason with
  | .cancelled _ => true
  | _ => false

/-- The error that a failure stands for. -/
def error (f : Failure) : BuildError :=
  match f.reason with
  | .failed message => .buildFailure f.unit message
  | .panicked message => .buildFailure f.unit message
  | .cancelled dependency => .dependencyFailed f.unit dependency

end Failure

structure Report where
  buildId : String
  state : BuildState
  /-- The names of the units in build order. -/
  order : List String
  /-- The number of partitions. -/
  partitions : Nat
  overflows : List Overflow
  succeeded : List Handle
  failed : List Failure
  startedAt : Option Instant
  completedAt : Option Instant
  deriving Inhabited

namespace Report

def isSuccess (r : Report) : Bool := r.state == .completed

def handle? (r : Report) (id : String) : Option Handle := r.succeeded.find? fun h => h.unitId == id

def failure? (r : Report) (id : String) : Option Failure := r.failed.find? fun f => f.unit == id

/-- The failures of units whose builder was called. -/
def rootFailures (r : Report) : List Failure := r.failed.filter fun f => !f.isCancelled

end Report
end Provision
