import Provision.Proofs.Build.Refusal
import Provision.Proofs.Build.Report

/-!
# What cancelled units are cancelled for

A cancelled unit names one dependency.  While other units are built the dependency is one that
failed; at the end of a partition it is the first one without a handle, which may be recorded as
failed only afterwards.  In the report of a build it has failed in either case.

**Tracing.**  The name leads to another unit that failed or was cancelled, and so on.  No unit is
reported twice, so there is one way to follow the names; it runs along dependencies, so it ends, and
it can only end at a unit that was not cancelled.

**Results.**
* `Run.Done.exists_root_of_blamed`: the names lead from a cancelled unit to one whose builder failed.
* `build_traces`: what a report says about the causes of cancellations.
* `nameless_build`: a cancellation may name the unit whose name is empty.
-/

namespace Provision

open Relation

variable {β σ : Type}

/-- Among the failures is that of a unit which was cancelled for a dependency. -/
def Blames (failures : List Failure) (id dependency : String) : Prop :=
  ∃ f ∈ failures, f.unit = id ∧ f.reason = .cancelled dependency

/-- What a report tells about the causes of cancellations. -/
structure Report.Traces (r : Report) (g : Graph) (run : Run β) : Prop where
  /-- No unit is reported twice, so a cancelled unit names a single dependency. -/
  once : (r.failed.map (·.unit)).Nodup
  /-- What a cancelled unit names is one of its dependencies, and it failed or was cancelled. -/
  named : ∀ f ∈ r.failed, ∀ d, f.reason = .cancelled d →
    (∃ u ∈ g.units, u.id = f.unit ∧ d ∈ u.dependsOn) ∧ ∃ cause ∈ r.failed, cause.unit = d
  /-- The empty name is named only if it is the name of a unit. -/
  nameless : ∀ f ∈ r.failed, f.reason = .cancelled "" → ∃ u ∈ g.units, u.id = ""
  /-- The names lead from a cancelled unit to one whose builder was called and failed. -/
  traced : ∀ f ∈ r.failed, f.isCancelled = true → ∃ root ∈ r.rootFailures,
    TransGen (Blames r.failed) f.unit root.unit ∧
      ∃ c o, (c, o) ∈ run.returned ∧ o.failure? c.unit.id = some root

/-- The failures of calls are reported under the units of the calls. -/
theorem units_failures_sublist
    (es : List (Call β × Outcome)) :
    ((es.filterMap fun e => e.2.failure? e.1.unit.id).map (·.unit)).Sublist
      (es.map (·.1.unit.id)) := by
  induction es with
  | nil => exact List.Sublist.refl _
  | cons e rest ih =>
      cases hfailure : e.2.failure? e.1.unit.id with
      | none =>
          simp only [List.filterMap_cons, hfailure, List.map_cons]
          exact ih.cons _
      | some f =>
          simp only [List.filterMap_cons, hfailure, List.map_cons, Outcome.unit_of_failure? hfailure]
          exact ih.cons_cons _

namespace Run.Done

variable
  {g : Graph}
  {p : Plan}
  {may : Call β → Outcome → Prop}
  {run : Run β}

/-- No unit fails twice. -/
theorem failures_nodup
    (h : run.Done g p may) :
    (run.failures.map (·.unit)).Nodup := by
  have hsub : (run.roots.map (·.unit) ++ run.cancelled).Sublist
      (run.returned.map (·.1.unit.id) ++ run.cancelled) := by
    rw [h.ledger.roots]
    exact (units_failures_sublist run.returned).append_right _
  have hnodup : (run.returned.map (·.1.unit.id) ++ run.cancelled).Nodup :=
    h.returned_perm.nodup_iff.mpr g.ids_nodup
  exact (List.perm_append_comm.trans run.failures_perm).nodup_iff.mp (hnodup.sublist hsub)

/-- What a cancelled unit names failed or was cancelled. -/
theorem exists_blamed
    (h : run.Done g p may)
    {f : Failure}
    (hf : f ∈ run.failures)
    {d : String}
    (hreason : f.reason = .cancelled d) :
    (∃ u ∈ g.units, u.id = f.unit ∧ d ∈ u.dependsOn) ∧ ∃ cause ∈ run.failures, cause.unit = d := by
  obtain ⟨u, hu, hid, hd, hlost⟩ := h.excused f hf d hreason
  rw [h.ledger.failed] at hlost
  exact ⟨⟨u, hu, hid, hd⟩, List.mem_map.mp hlost⟩

/-- The names lead from a cancelled unit to one whose builder failed. -/
theorem exists_root_of_blamed
    (h : run.Done g p may)
    {f : Failure}
    (hf : f ∈ run.failures)
    (hcancelled : f.isCancelled = true) :
    ∃ root ∈ run.roots, TransGen (Blames run.failures) f.unit root.unit := by
  -- the names run along dependencies, so a unit can be taken up after those that it names
  have hleads : ∀ u ∈ g.units, ∀ f ∈ run.failures, f.unit = u.id → f.isCancelled = true →
      ∃ root ∈ run.roots, TransGen (Blames run.failures) f.unit root.unit := by
    refine g.dependency_induction (P := fun id => ∀ f ∈ run.failures, f.unit = id →
      f.isCancelled = true → ∃ root ∈ run.roots, TransGen (Blames run.failures) f.unit root.unit) ?_
    intro u hu ih f hf hid hcancelled
    obtain ⟨d, hreason⟩ := Failure.isCancelled_iff.mp hcancelled
    obtain ⟨⟨v, hv, hvid, hd⟩, cause, hcause, rfl⟩ := h.exists_blamed hf hreason
    obtain rfl := g.eq_of_id_eq hv hu (hvid.trans hid)
    have hstep : Blames run.failures f.unit cause.unit := ⟨f, hf, rfl, hreason⟩
    cases hkind : cause.isCancelled with
    | true =>
        obtain ⟨root, hroot, hchain⟩ := ih cause.unit hd cause hcause rfl hkind
        exact ⟨root, hroot, TransGen.head hstep hchain⟩
    | false =>
        exact ⟨cause, List.mem_filter.mpr ⟨hcause, by simp [hkind]⟩, TransGen.single hstep⟩
  obtain ⟨d, hreason⟩ := Failure.isCancelled_iff.mp hcancelled
  obtain ⟨⟨u, hu, hid, _⟩, _⟩ := h.exists_blamed hf hreason
  exact hleads u hu f hf hid.symm hcancelled

/-- What the report of a build that came to its end tells about the causes of cancellations. -/
theorem traces
    (h : run.Done g p may)
    (stamp : Stamp) :
    (run.report stamp g p).Traces g run := by
  have hperm := run.failed_perm stamp g p
  have hnamed : ∀ f ∈ (run.report stamp g p).failed, ∀ d, f.reason = .cancelled d →
      (∃ u ∈ g.units, u.id = f.unit ∧ d ∈ u.dependsOn) ∧
        ∃ cause ∈ (run.report stamp g p).failed, cause.unit = d := by
    intro f hf d hreason
    obtain ⟨hneeded, cause, hcause, hid⟩ := h.exists_blamed (hperm.mem_iff.mp hf) hreason
    exact ⟨hneeded, cause, hperm.mem_iff.mpr hcause, hid⟩
  refine ⟨(hperm.map _).nodup_iff.mpr h.failures_nodup, hnamed, ?_, ?_⟩
  · intro f hf hreason
    obtain ⟨⟨u, hu, _, hd⟩, _⟩ := hnamed f hf "" hreason
    exact List.mem_map.mp (g.known hu hd)
  · intro f hf hcancelled
    obtain ⟨root, hroot, hchain⟩ := h.exists_root_of_blamed (hperm.mem_iff.mp hf) hcancelled
    refine ⟨root, (run.mem_rootFailures_iff stamp g p).mpr hroot, ?_, h.ledger.mem_roots_iff.mp hroot⟩
    refine TransGen.mono (fun id d => ?_) _ _ hchain
    rintro ⟨f, hf, hunit, hreason⟩
    exact ⟨f, hperm.mem_iff.mpr hf, hunit, hreason⟩

end Run.Done

/-- A report is that of a build that came to its end. -/
theorem done_of_build
    {e : Executor β σ}
    {stamp : Stamp}
    {g : Graph}
    {p : Plan}
    {w w' : σ}
    {r : Report}
    (h : build e stamp g p w = .ok (r, w')) :
    (e.run g p w).1.Done g p (fun _ _ => True) ∧ (e.run g p w).1.report stamp g p = r := by
  cases hvalid : e.validate g p with
  | error error =>
      have hrefused : ∃ error, build e stamp g p w = .error error :=
        Executor.build_eq_error_iff.mpr ⟨error, hvalid⟩
      obtain ⟨_, herror⟩ := hrefused
      rw [h] at herror
      cases herror
  | ok =>
      have hdone := Executor.run_done (Executor.serves_of_validated hvalid) w
      rw [build_eq_ok hdone.going stamp] at h
      cases h
      exact ⟨hdone, rfl⟩

/-- In the report of every build a cancelled unit names a dependency that failed or was cancelled,
and the names lead to a unit whose builder failed. -/
theorem build_traces
    {e : Executor β σ}
    {stamp : Stamp}
    {g : Graph}
    {p : Plan}
    {w w' : σ}
    {r : Report}
    (h : build e stamp g p w = .ok (r, w')) :
    r.Traces g (e.run g p w).1 := by
  obtain ⟨hdone, rfl⟩ := done_of_build h
  exact hdone.traces stamp

/-- Units in a chain. -/
def Graph.chained : Graph where
  units :=
    [⟨"network", .network, .null, [], 1⟩,
      ⟨"cluster", .kubernetes, .null, ["network"], 1⟩,
      ⟨"nodes", .compute, .null, ["cluster"], 1⟩,
      ⟨"addons", .addon, .null, ["nodes"], 1⟩]
  checked := by cbv

/-- The chain in one partition, every unit listed before its dependency. -/
def Plan.reversed : Plan where
  ceiling := 4
  partitions := [⟨0, "all", ["addons", "nodes", "cluster", "network"], 4, false⟩]
  overflows := []

/-- The last units of the chain are left at the end of the partition, where the first of them is
cancelled for a unit that is left itself. -/
theorem reversed_build_traces :
    ∃ r w', build (.frail "network" none) ⟨"build", none, none⟩ .chained .reversed [] =
        .ok (r, w') ∧
      r.Traces .chained ((Executor.frail "network" none).run .chained .reversed []).1 ∧
      r.failed = [⟨"network", .panicked "out of capacity"⟩, ⟨"cluster", .cancelled "network"⟩,
        ⟨"nodes", .cancelled "cluster"⟩, ⟨"addons", .cancelled "nodes"⟩] := by
  have hfailed : (build (.frail "network" none) ⟨"build", none, none⟩ .chained .reversed []).map
      (fun s => s.1.failed) = .ok [⟨"network", .panicked "out of capacity"⟩,
        ⟨"cluster", .cancelled "network"⟩, ⟨"nodes", .cancelled "cluster"⟩,
        ⟨"addons", .cancelled "nodes"⟩] := by
    cbv
  obtain ⟨⟨r, w'⟩, hbuild, hfailed⟩ := map_eq_ok_iff.mp hfailed
  exact ⟨r, w', hbuild, build_traces hbuild, hfailed⟩

/-- Units of which the first one has the empty name. -/
def Graph.nameless : Graph where
  units :=
    [⟨"", .compute, .null, [], 1⟩,
      ⟨"network", .compute, .null, [], 1⟩,
      ⟨"app", .compute, .null, ["", "network"], 1⟩]
  checked := by cbv

/-- The executor whose builders always break down. -/
def Executor.hopeless : Executor Unit (List Nat) :=
  .ofLimit ⟨[], some ()⟩ (.scripted fun _ => .panicked "out of capacity") none

/-- A cancellation names the empty name when a dependency with that name failed. -/
theorem nameless_build :
    ∃ r w', build .hopeless ⟨"build", none, none⟩ .nameless (.single .nameless) [] = .ok (r, w') ∧
      ¬ ∀ f ∈ r.failed, ∀ d, f.reason = .cancelled d → d ≠ "" := by
  have hfailed : (build .hopeless ⟨"build", none, none⟩ .nameless (.single .nameless) []).map
      (fun s => s.1.failed) = .ok [⟨"", .panicked "out of capacity"⟩,
        ⟨"network", .panicked "out of capacity"⟩, ⟨"app", .cancelled ""⟩] := by
    cbv
  obtain ⟨⟨r, w'⟩, hbuild, hfailed⟩ := map_eq_ok_iff.mp hfailed
  have happ : ⟨"app", .cancelled ""⟩ ∈ r.failed := by
    change r.failed = _ at hfailed
    simp [hfailed]
  exact ⟨r, w', hbuild, fun hnever => hnever _ happ "" rfl rfl⟩

end Provision
