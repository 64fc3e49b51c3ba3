import Mathlib
import Provision.Proofs.Build.Supply
import Provision.Proofs.Graph.Order

/-!
# What never goes wrong in a build

**Limit.**  A builder is called only if fewer calls are in flight than the limit allows.

**Partitions.**  The pending units are in the partition that was begun last, and when it was begun,
all units of the earlier ones had handles or failures.

**Results.**
* `Executor.Reachable.isSafe`: in every reachable state, no unit was built twice, builders received
  exactly the handles of their dependencies, no unit has a handle and a failure, and the limit is
  kept; and a builder is called only when the dependencies of its unit have handles and the earlier
  partitions are settled.
-/

namespace Provision

variable {β σ : Type}

namespace Run

/-- No more calls are in flight than a limit allows. -/
def Within (limit : Option Nat) (run : Run β) : Prop :=
  ∀ n ∈ limit, run.tasks.length ≤ n

/-- Whether a unit has a handle or a failure. -/
def Settled (run : Run β) (id : String) : Prop :=
  run.hasHandle id = true ∨ id ∈ run.failed

/-- The pending units are in the last of the partitions that were begun, and the units of the
partitions before it are settled. -/
structure InTurn
    (p : Plan)
    (k : Nat)
    (run : Run β) : Prop where
  current : ∀ u ∈ run.pending, ∃ part, p.partitions[k - 1]? = some part ∧ u.id ∈ part.units
  earlier : ∀ id ∈ p.entered (k - 1), run.Settled id

/-- What holds in every state of a build under a limit. -/
structure IsSafe
    (limit : Option Nat)
    (run : Run β) : Prop where
  once : (run.calls.map (·.unit.id)).Nodup
  complete : ∀ c ∈ run.calls, ∀ d ∈ c.unit.dependsOn, Entries.hasKey d c.dependencies = true
  exactly : ∀ c ∈ run.calls, ∀ id h, Entries.find? id c.dependencies = some h ↔
    id ∈ c.unit.dependsOn ∧ ∃ c', c'.unit.id = id ∧ (c', .built h) ∈ run.returned
  disjoint : ∀ id, run.hasHandle id = true → id ∉ run.failed
  within : ∀ n ∈ limit, run.tasks.length ≤ max 1 n

/-- What holds when the builder of a unit is called. -/
structure IsDue
    (p : Plan)
    (run : Run β)
    (u : Resource) : Prop where
  fresh : u.id ∉ run.calls.map (·.unit.id)
  ready : ∀ d ∈ u.dependsOn, run.hasHandle d = true
  placed : ∃ (m : Nat) (part : Partition), p.partitions[m]? = some part ∧ u.id ∈ part.units
  earlier : ∀ (m : Nat) (part : Partition), p.partitions[m]? = some part → u.id ∈ part.units →
    ∀ n < m, ∀ part', p.partitions[n]? = some part' → ∀ id ∈ part'.units, run.Settled id

theorem Within.move
    {limit : Option Nat}
    {run run' : Run β}
    (h : run.Within limit)
    {registry : Registry β}
    {may : Call β → Outcome → Prop}
    (hmove : run.Move registry limit may run') :
    run'.Within limit := by
  intro n hn
  have hle := h n hn
  obtain rfl := Option.mem_def.mp hn
  cases hmove with
  | launch _ _ room =>
      simp only [hasCapacity, decide_eq_true_eq] at room
      simp only [launch, take, List.length_append, List.length_singleton]
      omega
  | join i =>
      have hlen := List.length_eraseIdx_le run.tasks i
      simp only [ended]
      omega
  | cancel => exact hle
  | pass => exact hle
  | abandon => exact hle

theorem InTurn.move
    {g : Graph}
    {p : Plan}
    {may : Call β → Outcome → Prop}
    {k : Nat}
    {run run' : Run β}
    (h : run.InTurn p k)
    (hledger : run.Ledger g p may k)
    (hledger' : run'.Ledger g p may k)
    {registry : Registry β}
    {limit : Option Nat}
    (hmove : run.Move registry limit may run') :
    run'.InTurn p k := by
  refine ⟨?_, ?_⟩
  · intro u hu
    exact h.current u (hmove.pending_subset hu)
  · intro id hid
    rcases h.earlier id hid with hhandle | hfailed
    · exact Or.inl (hledger.hasHandle_mono hledger' hmove.returned_subset hhandle)
    · exact Or.inr (hmove.failed_subset hfailed)

/-- When a partition is begun, the units of those before it are settled. -/
theorem InTurn.enter
    {g : Graph}
    {p : Plan}
    {may : Call β → Outcome → Prop}
    {k : Nat}
    {run : Run β}
    (hledger : run.Ledger g p may k)
    (hpending : run.pending = [])
    (htasks : run.tasks = [])
    {part : Partition}
    (hnext : p.partitions[k]? = some part) :
    (run.enter g part).InTurn p (k + 1) := by
  refine ⟨?_, ?_⟩
  · intro u hu
    obtain ⟨id, hid, hunit⟩ := List.mem_filterMap.mp hu
    obtain ⟨_, rfl⟩ := g.unit?_eq_some_iff.mp hunit
    exact ⟨part, hnext, hid⟩
  · intro id hid
    have hsettled : run.Settled id := by simpa [Settled, hpending, htasks] using hledger.settled hid
    exact hsettled

theorem Starts.isDue
    {g : Graph}
    {p : Plan}
    {may : Call β → Outcome → Prop}
    {k : Nat}
    {run : Run β}
    {registry : Registry β}
    {limit : Option Nat}
    {c : Call β}
    (h : run.Starts registry limit c)
    (haccepted : p.check g = .ok ())
    (hledger : run.Ledger g p may k)
    (hturn : run.InTurn p k) :
    run.IsDue p c.unit := by
  obtain ⟨last, hlast, hin⟩ := hturn.current c.unit h.pending
  refine ⟨?_, h.ready, ⟨k - 1, last, hlast, hin⟩, ?_⟩
  · intro hcalled
    have hall := hledger.placed.nodup_iff.mpr (Plan.entered_nodup haccepted k)
    have hapart := (List.nodup_append.mp (List.nodup_append.mp hall).1).2.2
    exact hapart _ (List.mem_map_of_mem h.pending) _ hcalled rfl
  · intro m part hpart hid n hn part' hpart' id hid'
    have hplace : m = k - 1 := Plan.place_unique haccepted
      (Plan.mem_places_iff.mpr ⟨part, hpart, hid⟩) (Plan.mem_places_iff.mpr ⟨last, hlast, hin⟩)
    exact hturn.earlier id (Plan.mem_entered_iff.mpr ⟨n, hplace ▸ hn, part', hpart', hid'⟩)

end Run

namespace Executor

variable {e : Executor β σ} {g : Graph} {p : Plan} {w : σ} {may : Call β → Outcome → Prop}

namespace Reachable

theorem within
    (hserves : e.Serves g p may)
    {k : Nat}
    {s : Run β × σ}
    (h : e.Reachable g p w k s) :
    s.1.Within e.limit := by
  refine h.invariant hserves (I := fun _ run => run.Within e.limit) ?_ ?_ ?_
  · exact fun n _ => Nat.zero_le n
  · exact fun _ _ _ _ _ _ _ _ n _ => Nat.zero_le n
  · exact fun _ _ _ _ hmove hwithin => hwithin.move hmove

theorem inTurn
    (hserves : e.Serves g p may)
    {k : Nat}
    {s : Run β × σ}
    (h : e.Reachable g p w k s) :
    s.1.InTurn p k := by
  refine h.invariant hserves ?_ ?_ ?_
  · refine ⟨?_, ?_⟩
    · intro u hu
      exact absurd hu List.not_mem_nil
    · intro id hid
      exact absurd hid List.not_mem_nil
  · intro k s part hreach hpending htasks hnext _
    exact Run.InTurn.enter (hreach.ledger hserves) hpending htasks hnext
  · intro k s run' hreach hmove hturn
    exact hturn.move (hreach.ledger hserves) (hreach.ledger_move hserves hmove) hmove

/-- A build that was refused does not leave its first state. -/
theorem eq_start
    {error : BuildError}
    (hrefused : e.validate g p = .error error)
    {k : Nat}
    {s : Run β × σ}
    (h : e.Reachable g p w k s) :
    s = (.start (.error error), w) := by
  induction h with
  | start => rw [hrefused]
  | enter _ going _ _ ih =>
      rw [ih] at going
      cases going
  | step _ taken ih =>
      rw [ih] at taken
      cases taken

/-- In every state of a build the units are treated as they should be. -/
theorem isSafe
    {registry : Registry β}
    {runner : Runner β σ}
    {limit : Option Nat}
    (hnames : runner.Respects Names)
    {k : Nat}
    {s : Run β × σ}
    (h : (ofLimit registry runner limit).Reachable g p w k s) :
    s.1.IsSafe limit ∧
      ∀ s', (ofLimit registry runner limit).step s = some s' →
        ∀ c ∈ s'.1.calls, c ∉ s.1.calls → s.1.IsDue p c.unit := by
  cases hvalid : (ofLimit registry runner limit).validate g p with
  | error error =>
      rw [h.eq_start hvalid]
      refine ⟨⟨List.nodup_nil, ?_, ?_, ?_, ?_⟩, ?_⟩
      · exact fun c hc => absurd hc List.not_mem_nil
      · exact fun c hc => absurd hc List.not_mem_nil
      · exact fun id hid => absurd hid Bool.false_ne_true
      · exact fun n _ => Nat.zero_le _
      · intro s' hs'
        cases hs'
  | ok =>
      obtain ⟨haccepted, hbuilders⟩ := validate_eq_ok_iff.mp hvalid
      have hserves : (ofLimit registry runner limit).Serves g p Names :=
        ⟨haccepted, hbuilders, hnames⟩
      have hledger := h.ledger hserves
      have hnodup := Plan.entered_nodup haccepted k
      have hgiven := h.find?_dependencies hserves fun _ _ hn => hn
      refine ⟨⟨hledger.calls_nodup hnodup, ?_, ?_, ?_, ?_⟩, ?_⟩
      · intro c hc d hd
        rw [Entries.hasKey, hgiven c hc, if_pos hd]
        exact (h.supplied hserves c hc).1 d hd
      · intro c hc id handle
        rw [hgiven c hc, ← hledger.handles]
        by_cases hid : id ∈ c.unit.dependsOn
        · simp [hid]
        · simp [hid]
      · exact fun id hhandle => hledger.disjoint hnodup hhandle
      · intro n hn
        exact h.within hserves (max 1 n) (Option.map_eq_some_iff.mpr ⟨n, hn, rfl⟩)
      · intro s' hs' c hc hnew
        have hmove := step_move hserves (h.sound hserves) hs'
        obtain ⟨hstarts, _⟩ := (hmove.mem_calls hc).resolve_left hnew
        exact hstarts.isDue haccepted hledger (h.inTurn hserves)

end Reachable
end Executor

/-- The units in layers, in partitions that do not follow the build order inside. -/
def Plan.layered : Plan where
  ceiling := 2
  partitions :=
    [⟨0, "base", ["network", "dns"], 2, false⟩,
      ⟨1, "cluster", ["nodes", "cluster"], 2, false⟩,
      ⟨2, "addons", ["addons"], 1, false⟩]
  overflows := []

/-- A rule by which every unit but one is built; its handle tells what it was built from. -/
def breaking (broken : String) (u : Resource) (dependencies : Handles) : Outcome :=
  if u.id = broken then .panicked "out of capacity"
  else .built (.ofResource u (" ".intercalate (u.id :: (dependencies.values.map (·.identifier)))))

theorem breaking_names
    (broken : String)
    (c : Call β) :
    Names c (breaking broken c.unit c.dependencies) := by
  intro h hh
  rw [breaking] at hh
  split at hh
  · cases hh
  · cases hh
    rfl

namespace Executor

/-- The executor with one builder for all kinds, which breaks down on one unit. -/
def frail (broken : String) (limit : Option Nat) : Executor Unit (List Nat) :=
  .ofLimit ⟨[], some ()⟩ (.scripted fun c => breaking broken c.unit c.dependencies) limit

theorem frail_serves
    (broken : String)
    (limit : Option Nat) :
    (frail broken limit).Serves .layered .layered Names where
  accepted := by decide +kernel
  builders := fun _ _ => ⟨(), rfl⟩
  respects := Runner.scripted_respects (breaking_names broken)

theorem frail_run_isSafe :
    (frail "nodes" (some 0)).runner.Respects Names ∧
      (frail "nodes" (some 0)).Reachable .layered .layered [1] 3
        ((frail "nodes" (some 0)).run .layered .layered [1]) ∧
      ((frail "nodes" (some 0)).run .layered .layered [1]).1.IsSafe (some 0) ∧
      ((frail "nodes" (some 0)).run .layered .layered [1]).1.calls.map (·.unit.id) =
        ["network", "dns", "cluster", "nodes"] := by
  obtain ⟨hreach, _⟩ := run_reachable (w := [1]) (frail_serves "nodes" (some 0))
  have hnames := (frail_serves "nodes" (some 0)).respects
  exact ⟨hnames, hreach, (Reachable.isSafe hnames hreach).1, by cbv⟩

end Executor
end Provision
