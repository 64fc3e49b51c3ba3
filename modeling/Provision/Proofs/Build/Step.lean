import Provision.Build.Executor
import Provision.Proofs.Plan.Acceptance

/-!
# The steps of a build

A step of the run of a partition cancels a pending unit, starts it, passes it over, ends a call in
flight or gives up a unit that is left.  Each of these moves is written down once, with everything
that is known when it is made.  Two things have to be known before a step can be read as a move:

* every pending unit is a unit of the graph, and so has a builder;
* every call in flight is found under its number.

**Results.**
* `Executor.step_move`: every step is one of the moves.
* `Executor.Reachable.invariant`: what holds at the start and is kept by every move, and by the
  beginning of a partition, holds in every reachable state.
* `Executor.run_reachable`: a build runs through reachable states to the end of its last partition.
-/

namespace Provision

variable {β σ : Type}

/-- The handle that comes of the end of a call. -/
def Outcome.handle? : Outcome → Option Handle
  | .built h => some h
  | .failed _ => none
  | .panicked _ => none

/-- What is recorded about a unit whose call ends. -/
def Outcome.failure? (id : String) : Outcome → Option Failure
  | .built _ => none
  | .failed e => some ⟨id, .failed e.message⟩
  | .panicked message => some ⟨id, .panicked message⟩

theorem Outcome.handle?_eq_some_iff
    {outcome : Outcome}
    {h : Handle} :
    outcome.handle? = some h ↔ outcome = .built h := by
  cases outcome <;> simp [handle?]

theorem Outcome.unit_of_failure?
    {outcome : Outcome}
    {id : String}
    {f : Failure}
    (h : outcome.failure? id = some f) :
    f.unit = id := by
  cases outcome <;> cases h <;> rfl

/-- What is recorded when a call ends is no cancellation. -/
theorem Outcome.isCancelled_of_failure?
    {outcome : Outcome}
    {id : String}
    {f : Failure}
    (h : outcome.failure? id = some f) :
    f.isCancelled = false := by
  cases outcome <;> cases h <;> rfl

theorem Failure.isCancelled_iff
    {f : Failure} :
    f.isCancelled = true ↔ ∃ d, f.reason = .cancelled d := by
  obtain ⟨unit, reason⟩ := f
  cases reason <;> simp [isCancelled]

/-- The number and the unit of a call in flight. -/
def Task.entry (t : Task β) : Nat × Resource := (t.number, t.call.unit)

/-- Calls end only as they may. -/
def Runner.Respects (runner : Runner β σ) (may : Call β → Outcome → Prop) : Prop :=
  ∀ w tasks, ∀ h : tasks ≠ [],
    may (tasks.get (runner.next w tasks h).1).call (runner.next w tasks h).2.1

/-- The runner that follows a list of picks and ends calls by a rule. -/
def Runner.scripted (behave : Call β → Outcome) : Runner β (List Nat) where
  next := fun picks tasks h =>
    let i : Fin tasks.length := ⟨picks.headD 0 % tasks.length, Nat.mod_lt _ (by
      exact List.length_pos_iff.mpr h)⟩
    (i, behave (tasks.get i).call, picks.tail)

theorem Runner.scripted_respects
    {behave : Call β → Outcome}
    {may : Call β → Outcome → Prop}
    (h : ∀ c, may c (behave c)) :
    (Runner.scripted behave).Respects may :=
  fun _ _ _ => h _

namespace Run

/-- Ends a call in flight and records its end under the unit of the call. -/
def ended (run : Run β) (i : Fin run.tasks.length) (outcome : Outcome) : Run β :=
  let call := (run.tasks.get i).call
  let failure := outcome.failure? call.unit.id
  { run with
    tasks := run.tasks.eraseIdx i
    inFlight := (run.tasks.eraseIdx i).map Task.entry
    cursor := 0
    returned := run.returned ++ [(call, outcome)]
    handles :=
      match outcome.handle? with
      | some h => Entries.insert call.unit.id h run.handles
      | none => run.handles
    succeeded := run.succeeded ++ outcome.handle?.toList
    failed := run.failed ++ failure.toList.map (·.unit)
    failures := run.failures ++ failure.toList }

/-- The moves of a run, and when they are made. -/
inductive Move
    (registry : Registry β)
    (limit : Option Nat)
    (may : Call β → Outcome → Prop)
    (run : Run β) :
    Run β → Prop
  | cancel
      {u : Resource}
      {d : String}
      (looked : run.pending[run.cursor]? = some u)
      (needed : d ∈ u.dependsOn)
      (lost : d ∈ run.failed) :
      Move registry limit may run (run.take.fail u.id (.cancelled d))
  | launch
      {u : Resource}
      {builder : β}
      (looked : run.pending[run.cursor]? = some u)
      (ready : ∀ d ∈ u.dependsOn, run.hasHandle d = true)
      (room : run.hasCapacity limit = true)
      (named : registry.require u = .ok builder) :
      Move registry limit may run (run.take.launch u builder)
  | pass
      {u : Resource}
      (looked : run.pending[run.cursor]? = some u)
      (spared : ∀ d ∈ u.dependsOn, d ∉ run.failed)
      (held : (∃ d ∈ u.dependsOn, run.hasHandle d = false) ∨ run.hasCapacity limit = false) :
      Move registry limit may run { run with cursor := run.cursor + 1 }
  | join
      (i : Fin run.tasks.length)
      (outcome : Outcome)
      (swept : run.pending.length ≤ run.cursor)
      (ends : may (run.tasks.get i).call outcome) :
      Move registry limit may run (run.ended i outcome)
  | abandon
      {u : Resource}
      (swept : run.pending.length ≤ run.cursor)
      (idle : run.tasks = [])
      (first : run.pending.head? = some u) :
      Move registry limit may run (run.abandon u)

/-- No error came up, pending units are units of the graph, and every call in flight is found under
its number. -/
structure Sound (g : Graph) (run : Run β) : Prop where
  going : run.fault = none
  known : ∀ u ∈ run.pending, u ∈ g.units
  tracked : run.inFlight = run.tasks.map Task.entry
  distinct : (run.tasks.map (·.number)).Nodup
  fresh : ∀ t ∈ run.tasks, t.number < run.nextTask

theorem lookup_entries
    {tasks : List (Task β)}
    (hdistinct : (tasks.map (·.number)).Nodup)
    {t : Task β}
    (ht : t ∈ tasks) :
    (tasks.map Task.entry).lookup t.number = some t.call.unit := by
  induction tasks with
  | nil => exact absurd ht List.not_mem_nil
  | cons first rest ih =>
      obtain ⟨hfirst, hrest⟩ := List.nodup_cons.mp hdistinct
      rw [List.map_cons, Task.entry, List.lookup_cons]
      rcases List.mem_cons.mp ht with rfl | ht
      · simp
      · have hne : t.number ≠ first.number := fun heq => hfirst (List.mem_map.mpr ⟨t, ht, heq⟩)
        rw [beq_eq_false_iff_ne.mpr hne]
        exact ih hrest ht

theorem filter_entries
    {tasks : List (Task β)}
    (hdistinct : (tasks.map (·.number)).Nodup)
    (i : Nat)
    (hi : i < tasks.length) :
    (tasks.map Task.entry).filter (fun e => e.1 != tasks[i].number) =
      (tasks.eraseIdx i).map Task.entry := by
  induction tasks generalizing i with
  | nil => exact absurd hi (Nat.not_lt_zero i)
  | cons first rest ih =>
      obtain ⟨hfirst, hrest⟩ := List.nodup_cons.mp hdistinct
      cases i with
      | zero =>
          rw [List.map_cons, List.filter_cons_of_neg (by simp [Task.entry])]
          rw [List.eraseIdx_cons_zero, List.filter_eq_self]
          intro e he
          obtain ⟨t, ht, rfl⟩ := List.mem_map.mp he
          have hne : t.number ≠ first.number := fun heq => hfirst (List.mem_map.mpr ⟨t, ht, heq⟩)
          simpa [Task.entry] using hne
      | succ i =>
          have hlt : i < rest.length := Nat.lt_of_succ_lt_succ hi
          have hne : first.number ≠ rest[i].number := fun heq =>
            hfirst (List.mem_map.mpr ⟨rest[i], List.getElem_mem hlt, heq.symm⟩)
          rw [List.map_cons, List.filter_cons_of_pos (by simpa [Task.entry] using hne)]
          rw [List.eraseIdx_cons_succ, List.map_cons]
          exact congrArg _ (ih hrest i hlt)

namespace Sound

variable {g : Graph} {run : Run β}

/-- The unit of a call that ends is found. -/
theorem join_eq
    (h : run.Sound g)
    (i : Fin run.tasks.length)
    (outcome : Outcome) :
    run.join i outcome = run.ended i outcome := by
  have hlookup := lookup_entries h.distinct (List.getElem_mem i.isLt)
  have hfilter := filter_entries h.distinct i i.isLt
  rw [← h.tracked] at hlookup hfilter
  simp only [join, List.get_eq_getElem, hlookup, hfilter]
  cases outcome with
  | built handle => simp [settle, ended, Outcome.handle?, Outcome.failure?]
  | failed e => simp [settle, fail, ended, Outcome.handle?, Outcome.failure?]
  | panicked message => simp [settle, fail, ended, Outcome.handle?, Outcome.failure?]

theorem start :
    (Run.start (β := β) (.ok ())).Sound g where
  going := rfl
  known := fun _ hu => absurd hu List.not_mem_nil
  tracked := rfl
  distinct := List.nodup_nil
  fresh := fun _ ht => absurd ht List.not_mem_nil

theorem enter
    (h : run.Sound g)
    (part : Partition) :
    (run.enter g part).Sound g where
  going := h.going
  known := by
    intro u hu
    obtain ⟨id, _, hid⟩ := List.mem_filterMap.mp hu
    exact (g.unit?_eq_some_iff.mp hid).1
  tracked := rfl
  distinct := List.nodup_nil
  fresh := fun _ ht => absurd ht List.not_mem_nil

theorem move
    (h : run.Sound g)
    {registry : Registry β}
    {limit : Option Nat}
    {may : Call β → Outcome → Prop}
    {run' : Run β}
    (hmove : Move registry limit may run run') :
    run'.Sound g := by
  cases hmove with
  | cancel =>
      refine ⟨h.going, ?_, h.tracked, h.distinct, h.fresh⟩
      intro v hv
      exact h.known v (List.mem_of_mem_eraseIdx hv)
  | @launch u builder =>
      refine ⟨h.going, ?_, ?_, ?_, ?_⟩
      · intro v hv
        exact h.known v (List.mem_of_mem_eraseIdx hv)
      · simp [launch, take, h.tracked, Task.entry]
      · simp only [launch, take, List.map_append, List.map_cons, List.map_nil]
        refine h.distinct.append (List.nodup_singleton _) ?_
        rintro n hn hn'
        obtain ⟨t, ht, rfl⟩ := List.mem_map.mp hn
        exact Nat.ne_of_lt (h.fresh t ht) (List.mem_singleton.mp hn')
      · intro t ht
        rcases List.mem_append.mp ht with ht | ht
        · exact Nat.lt_succ_of_lt (h.fresh t ht)
        · rw [List.mem_singleton.mp ht]
          exact Nat.lt_succ_self _
  | pass => exact ⟨h.going, h.known, h.tracked, h.distinct, h.fresh⟩
  | join i =>
      refine ⟨h.going, h.known, rfl, ?_, ?_⟩
      · exact h.distinct.sublist ((List.eraseIdx_sublist _ _).map _)
      · intro t ht
        exact h.fresh t (List.mem_of_mem_eraseIdx ht)
  | abandon =>
      refine ⟨h.going, ?_, h.tracked, h.distinct, h.fresh⟩
      intro v hv
      exact h.known v (List.mem_of_mem_tail hv)

end Sound

/-- A look at a pending unit that has a builder is a move. -/
theorem visit_move
    {registry : Registry β}
    {limit : Option Nat}
    {may : Call β → Outcome → Prop}
    {run : Run β}
    {u : Resource}
    {builder : β}
    (hlooked : run.pending[run.cursor]? = some u)
    (hnamed : registry.require u = .ok builder) :
    Move registry limit may run (run.visit registry limit u) := by
  rw [visit]
  cases hfind : u.dependsOn.find? run.hasFailed with
  | some d =>
      have hlost := List.find?_some hfind
      rw [hasFailed, List.contains_iff_mem] at hlost
      exact Move.cancel hlooked (List.mem_of_find?_eq_some hfind) hlost
  | none =>
      dsimp only
      split
      · rename_i hready
        rw [Bool.and_eq_true, List.all_eq_true] at hready
        rw [hnamed]
        exact Move.launch hlooked hready.1 hready.2 hnamed
      · rename_i hheld
        refine Move.pass hlooked ?_ ?_
        · intro d hd hlost
          have hnot := List.find?_eq_none.mp hfind d hd
          exact hnot (List.contains_iff_mem.mpr hlost)
        · rw [Bool.and_eq_true, not_and_or, Bool.not_eq_true, Bool.not_eq_true,
            List.all_eq_false] at hheld
          simpa using hheld

end Run

theorem Registry.exists_require_iff
    {registry : Registry β}
    {u : Resource} :
    (∃ b, registry.require u = .ok b) ↔ (registry.get? u.kind).isSome = true := by
  rw [require]
  cases registry.get? u.kind with
  | none => simp
  | some b => simp

theorem Registry.requireAll_eq_ok_iff
    {registry : Registry β}
    {units : List Resource} :
    registry.requireAll units = .ok () ↔ ∀ u ∈ units, ∃ b, registry.require u = .ok b := by
  induction units with
  | nil => simp [requireAll]
  | cons u rest ih =>
      rw [requireAll, bind_eq_ok_iff, List.forall_mem_cons, ih]
      constructor
      · rintro ⟨b, hb, hrest⟩
        exact ⟨⟨b, hb⟩, hrest⟩
      · rintro ⟨⟨b, hb⟩, hrest⟩
        exact ⟨b, hb, hrest⟩

namespace Executor

/-- The states that a run of a plan comes through, each with the number of partitions begun. -/
inductive Reachable
    (e : Executor β σ)
    (g : Graph)
    (p : Plan)
    (w : σ) :
    Nat → Run β × σ → Prop
  | start :
      Reachable e g p w 0 (.start (e.validate g p), w)
  | enter
      {k : Nat}
      {s : Run β × σ}
      {part : Partition}
      (before : Reachable e g p w k s)
      (going : s.1.fault = none)
      (quiet : e.step s = none)
      (next : p.partitions[k]? = some part) :
      Reachable e g p w (k + 1) (s.1.enter g part, s.2)
  | step
      {k : Nat}
      {s s' : Run β × σ}
      (before : Reachable e g p w k s)
      (taken : e.step s = some s') :
      Reachable e g p w k s'

/-- The plan is accepted, every unit has a builder, and calls end only as they may. -/
structure Serves
    (e : Executor β σ)
    (g : Graph)
    (p : Plan)
    (may : Call β → Outcome → Prop) : Prop where
  accepted : p.check g = .ok ()
  builders : ∀ u ∈ g.units, ∃ b, e.registry.require u = .ok b
  respects : e.runner.Respects may

variable {e : Executor β σ} {g : Graph} {p : Plan} {w : σ} {may : Call β → Outcome → Prop}

theorem validate_eq_ok_iff :
    e.validate g p = .ok () ↔
      p.check g = .ok () ∧ ∀ u ∈ g.units, ∃ b, e.registry.require u = .ok b := by
  rw [validate, check_bind_eq_ok_iff, Registry.requireAll_eq_ok_iff]

theorem Serves.validate_eq
    (h : e.Serves g p may) :
    e.validate g p = .ok () :=
  validate_eq_ok_iff.mpr ⟨h.accepted, h.builders⟩

/-- Every step is one of the moves. -/
theorem step_move
    (hserves : e.Serves g p may)
    {s s' : Run β × σ}
    (hsound : s.1.Sound g)
    (h : e.step s = some s') :
    s.1.Move e.registry e.limit may s'.1 := by
  obtain ⟨run, w⟩ := s
  rw [step, hsound.going, Option.isSome_none, if_neg Bool.false_ne_true] at h
  cases hlooked : run.pending[run.cursor]? with
  | some u =>
      rw [hlooked] at h
      cases h
      obtain ⟨b, hb⟩ := hserves.builders u (hsound.known u (List.mem_of_getElem? hlooked))
      exact Run.visit_move hlooked hb
  | none =>
      rw [hlooked] at h
      have hswept := List.getElem?_eq_none_iff.mp hlooked
      dsimp only at h
      split at h
      · rename_i hidle
        obtain ⟨u, hfirst, rfl⟩ := Option.map_eq_some_iff.mp h
        exact Run.Move.abandon hswept hidle hfirst
      · rename_i hbusy
        cases h
        rw [hsound.join_eq]
        exact Run.Move.join _ _ hswept (hserves.respects w run.tasks hbusy)

/-- A run without an error takes steps until no unit is pending and no call is in flight. -/
theorem step_eq_none
    {s : Run β × σ}
    (hgoing : s.1.fault = none)
    (h : e.step s = none) :
    s.1.pending = [] ∧ s.1.tasks = [] := by
  obtain ⟨run, w⟩ := s
  rw [step, hgoing, Option.isSome_none, if_neg Bool.false_ne_true] at h
  cases hlooked : run.pending[run.cursor]? with
  | some u =>
      rw [hlooked] at h
      cases h
  | none =>
      rw [hlooked] at h
      dsimp only at h
      split at h
      · rename_i hidle
        exact ⟨List.head?_eq_none_iff.mp (Option.map_eq_none_iff.mp h), hidle⟩
      · cases h

namespace Reachable

theorem sound
    (hserves : e.Serves g p may)
    {k : Nat}
    {s : Run β × σ}
    (h : e.Reachable g p w k s) :
    s.1.Sound g := by
  induction h with
  | start =>
      rw [hserves.validate_eq]
      exact Run.Sound.start
  | enter _ _ _ _ ih => exact ih.enter _
  | step _ taken ih => exact ih.move (step_move hserves ih taken)

/-- What holds at the start and is kept by every move, and by the beginning of a partition, holds
in every reachable state. -/
theorem invariant
    (hserves : e.Serves g p may)
    {I : Nat → Run β → Prop}
    (hstart : I 0 (.start (.ok ())))
    (henter : ∀ k s part, e.Reachable g p w k s → s.1.pending = [] → s.1.tasks = [] →
      p.partitions[k]? = some part → I k s.1 → I (k + 1) (s.1.enter g part))
    (hmove : ∀ k s run', e.Reachable g p w k s → s.1.Move e.registry e.limit may run' →
      I k s.1 → I k run')
    {k : Nat}
    {s : Run β × σ}
    (h : e.Reachable g p w k s) :
    I k s.1 := by
  induction h with
  | start =>
      rw [hserves.validate_eq]
      exact hstart
  | enter before going quiet next ih =>
      obtain ⟨hpending, htasks⟩ := step_eq_none going quiet
      exact henter _ _ _ before hpending htasks next ih
  | step before taken ih =>
      exact hmove _ _ _ before (step_move hserves (before.sound hserves) taken) ih

/-- The run of a partition comes to its end in a reachable state. -/
theorem drive
    {k : Nat}
    {s : Run β × σ}
    (h : e.Reachable g p w k s) :
    e.Reachable g p w k (e.drive s) ∧ e.step (e.drive s) = none := by
  fun_induction Executor.drive e s with
  | case1 s s' hstep ih => exact ih (h.step hstep)
  | case2 s hstep => exact ⟨h, hstep⟩

/-- The partitions that are left are run one after the other. -/
theorem foldl_runPartition
    (hserves : e.Serves g p may)
    {rest : List Partition}
    {k : Nat}
    {s : Run β × σ}
    (hrest : p.partitions.drop k = rest)
    (h : e.Reachable g p w k s)
    (hover : e.step s = none) :
    e.Reachable g p w (k + rest.length) (rest.foldl (e.runPartition g) s) ∧
      e.step (rest.foldl (e.runPartition g) s) = none := by
  induction rest generalizing k s with
  | nil => exact ⟨h, hover⟩
  | cons part rest ih =>
      have hgoing := (h.sound hserves).going
      have hnext : p.partitions[k]? = some part := by
        rw [← List.head?_drop, hrest, List.head?_cons]
      have hrest' : p.partitions.drop (k + 1) = rest := by
        rw [← List.tail_drop, hrest, List.tail_cons]
      obtain ⟨hreach, hover'⟩ := (h.enter hgoing hover hnext).drive
      have hpart : e.runPartition g s part = e.drive (s.1.enter g part, s.2) := by
        simp only [runPartition, hgoing]
      rw [List.foldl_cons, hpart, List.length_cons, Nat.add_comm rest.length 1, ← Nat.add_assoc]
      exact ih hrest' hreach hover'

end Reachable

/-- A build runs to the end of its last partition. -/
theorem run_reachable
    (hserves : e.Serves g p may) :
    e.Reachable g p w p.partitions.length (e.run g p w) ∧ e.step (e.run g p w) = none := by
  have hover : e.step (.start (e.validate g p), w) = none := by
    rw [hserves.validate_eq]
    rfl
  simpa [run] using Reachable.start.foldl_runPartition hserves List.drop_zero hover

end Executor
end Provision
