import Provision.Build.Run

/-!
# Running builds

Input:
* a build graph, a plan, the builders of the units, and a runner that tells which of the calls in
  flight ends next and how.

Algorithm:
* the plan and the builders are checked before any builder is called;
* the partitions of a plan are run one after the other, each step by step: while there are pending
  units to look at, one of them is looked at; otherwise a call in flight ends; when none is in
  flight, the pending units that are left are cancelled;
* every step takes a unit from the pending ones or from those in flight, or goes on to the next
  pending unit, so a run ends.

Results:
* `Executor.run` is the run of a plan, and `build` its report, or an error; `buildUnits` starts from
  units.
-/

namespace Provision

/-- What tells which of the calls in flight ends next and how; it may keep a state of its own. -/
structure Runner (β σ : Type) where
  next : σ → (tasks : List (Task β)) → tasks ≠ [] → Fin tasks.length × Outcome × σ

structure Executor (β σ : Type) where
  registry : Registry β
  runner : Runner β σ
  /-- How many builders may run at the same time. -/
  limit : Option Nat
  limit_pos : ∀ n ∈ limit, 0 < n

namespace Executor

variable {β σ : Type}

/-- The executor under a limit, which counts as one if it is zero. -/
def ofLimit (registry : Registry β) (runner : Runner β σ) (limit : Option Nat) :
    Executor β σ where
  registry := registry
  runner := runner
  limit := limit.map (max 1)
  limit_pos := by
    intro n hn
    obtain ⟨m, _, rfl⟩ := Option.map_eq_some_iff.mp hn
    exact Nat.le_max_left 1 m

/-- Refuses plans that cannot be built and units without builders. -/
def validate (e : Executor β σ) (g : Graph) (p : Plan) : Except BuildError Unit := do
  p.check g
  e.registry.requireAll g.units

/-- The next state of the run of a partition, unless the run is over. -/
def step (e : Executor β σ) : Run β × σ → Option (Run β × σ)
  | (run, w) =>
    if run.fault.isSome then none
    else
      match run.pending[run.cursor]? with
      | some u => some (run.visit e.registry e.limit u, w)
      | none =>
        if h : run.tasks = [] then run.pending.head?.map fun u => (run.abandon u, w)
        else
          let (i, outcome, w) := e.runner.next w run.tasks h
          some (run.join i outcome, w)

/-- Every step brings the run of a partition closer to its end. -/
theorem step_decreases
    {e : Executor β σ}
    {s s' : Run β × σ}
    (h : e.step s = some s') :
    s'.1.remaining < s.1.remaining ∨
      s'.1.remaining = s.1.remaining ∧ s'.1.ahead < s.1.ahead := by
  obtain ⟨run, w⟩ := s
  simp only [step] at h
  split at h
  · cases h
  · split at h
    · rename_i hu
      cases h
      exact Run.visit_decreases hu
    · split at h
      · obtain ⟨u, hu, rfl⟩ := Option.map_eq_some_iff.mp h
        exact Or.inl (Run.remaining_abandon hu)
      · cases h
        exact Or.inl (Run.remaining_join run _ _)

def drive (e : Executor β σ) (s : Run β × σ) : Run β × σ :=
  match _hstep : e.step s with
  | some s' => e.drive s'
  | none => s
termination_by (s.1.remaining, s.1.ahead)
decreasing_by exact Prod.lex_def.mpr (step_decreases ‹_›)

/-- Runs a partition unless the build has ended. -/
def runPartition (e : Executor β σ) (g : Graph) (s : Run β × σ) (p : Partition) : Run β × σ :=
  match s.1.fault with
  | some _ => s
  | none => e.drive (s.1.enter g p, s.2)

def run (e : Executor β σ) (g : Graph) (p : Plan) (w : σ) : Run β × σ :=
  p.partitions.foldl (e.runPartition g) (.start (e.validate g p), w)

end Executor

def build {β σ : Type} (e : Executor β σ) (stamp : Stamp) (g : Graph) (p : Plan) (w : σ) :
    Except BuildError (Report × σ) :=
  let (run, w) := e.run g p w
  match run.fault with
  | some error => .error error
  | none => .ok (run.report stamp g p, w)

/-- Builds units as one partition. -/
def buildUnits {β σ : Type} (e : Executor β σ) (stamp : Stamp) (units : List Resource) (w : σ) :
    Except BuildError (Report × σ) := do
  let g ← Graph.ofUnits units
  build e stamp g (.single g) w

end Provision
