import Provision.Proofs.Build.Cancellation
import Provision.Proofs.Build.Safety

/-!
# What a report tells

**Order.**  The values of a list with different names, put in the order of these names, are the
values that are found name by name.  So the handles and the failures of a report, put in the build
order, are read off by going through the names of the units.

**Completeness.**  A call that ended gives a handle or a failure, and a unit that was not called is
cancelled.  So the handles and the failures of a report name every unit once.

**Results.**
* `Sorted.byRank_eq_filterMap`: the order of reports.
* `build_accounts`: every build of an accepted plan gives a report, and what the report tells is
  what became of the units.
-/

namespace Provision

variable {β σ : Type}

namespace Sorted

variable {α : Type} {key : α → String} {order : List String} {as : List α}

/-- Values with different names, in the order of their names. -/
theorem byRank_eq_filterMap
    (hnodup : order.Nodup)
    (hkeys : (as.map key).Nodup)
    (hmem : ∀ a ∈ as, key a ∈ order) :
    byRank (fun a => order.findIdx (· == key a)) as =
      order.filterMap fun id => as.find? fun a => key a == id := by
  have hsorted := byRank_perm (fun a => order.idxOf (key a)) as
  have hfound := perm_filterMap_find? hnodup hkeys hmem
  have hrank : (order.filterMap fun id => as.find? fun a => key a == id).Pairwise
      fun a b => order.idxOf (key a) ≤ order.idxOf (key b) := by
    rw [List.pairwise_filterMap, List.pairwise_iff_getElem]
    intro i j hi hj hij a ha b hb
    have hkey := ((find?_key_eq_some_iff hkeys).mp ha).2
    have hkey' := ((find?_key_eq_some_iff hkeys).mp hb).2
    rw [hkey, hkey', hnodup.idxOf_getElem, hnodup.idxOf_getElem]
    exact Nat.le_of_lt hij
  refine List.Perm.eq_of_pairwise ?_ (byRank_pairwise _ as) hrank (hsorted.trans hfound)
  intro a b ha hb hab hba
  have ha' := hsorted.mem_iff.mp ha
  have hb' := hfound.mem_iff.mpr hb
  have hkey := (List.idxOf_inj (hmem a ha')).mp (Nat.le_antisymm hab hba)
  exact List.inj_on_of_nodup_map hkeys ha' hb' hkey

end Sorted

/-- A call that ended gives a handle or a failure of its unit. -/
theorem names_perm
    {es : List (Call β × Outcome)}
    (hnames : ∀ e ∈ es, Names e.1 e.2) :
    ((es.filterMap fun e => e.2.handle?).map (·.unitId) ++
        (es.filterMap fun e => e.2.failure? e.1.unit.id).map (·.unit)).Perm
      (es.map (·.1.unit.id)) := by
  induction es with
  | nil => exact List.Perm.refl _
  | cons e rest ih =>
      obtain ⟨c, outcome⟩ := e
      obtain ⟨hname, hrest⟩ := List.forall_mem_cons.mp hnames
      cases outcome with
      | built h =>
          simp only [List.filterMap_cons, Outcome.handle?, Outcome.failure?, List.map_cons,
            List.cons_append, hname h rfl]
          exact (ih hrest).cons c.unit.id
      | failed error =>
          simp only [List.filterMap_cons, Outcome.handle?, Outcome.failure?, List.map_cons]
          exact List.perm_middle.trans ((ih hrest).cons c.unit.id)
      | panicked message =>
          simp only [List.filterMap_cons, Outcome.handle?, Outcome.failure?, List.map_cons]
          exact List.perm_middle.trans ((ih hrest).cons c.unit.id)

/-- A part of the names of the units holds no name twice. -/
theorem nodup_of_perm_append
    {g : Graph}
    {names others : List String}
    (h : (names ++ others).Perm (g.units.map (·.id))) :
    names.Nodup ∧ ∀ id ∈ names, id ∈ g.orderIds := by
  refine ⟨(List.nodup_append.mp (h.nodup_iff.mpr g.ids_nodup)).1, ?_⟩
  intro id hid
  exact g.mem_orderIds_iff.mpr (h.mem_iff.mp (List.mem_append_left others hid))

namespace Run

variable
  {g : Graph}
  {p : Plan}
  {may : Call β → Outcome → Prop}
  {run : Run β}

namespace Done

/-- Every unit has either a handle or a failure, and only one of these. -/
theorem names_perm
    (h : run.Done g p may)
    (hnames : ∀ c outcome, may c outcome → Names c outcome) :
    (run.succeeded.map (·.unitId) ++ run.failures.map (·.unit)).Perm (g.units.map (·.id)) := by
  have hended : (run.succeeded.map (·.unitId) ++ run.roots.map (·.unit)).Perm
      (run.returned.map (·.1.unit.id)) := by
    rw [h.ledger.succeeded, h.ledger.roots]
    exact Provision.names_perm fun e he => hnames _ _ (h.ledger.ends e he)
  refine ((run.failures_perm.symm.trans List.perm_append_comm).append_left _).trans ?_
  rw [← List.append_assoc]
  exact (hended.append_right _).trans h.returned_perm

theorem succeeded_names
    (h : run.Done g p may)
    (hnames : ∀ c outcome, may c outcome → Names c outcome) :
    (run.succeeded.map (·.unitId)).Nodup ∧ ∀ a ∈ run.succeeded, a.unitId ∈ g.orderIds := by
  obtain ⟨hnodup, hmem⟩ := nodup_of_perm_append (h.names_perm hnames)
  exact ⟨hnodup, fun _ ha => hmem _ (List.mem_map_of_mem ha)⟩

theorem failures_names
    (h : run.Done g p may)
    (hnames : ∀ c outcome, may c outcome → Names c outcome) :
    (run.failures.map (·.unit)).Nodup ∧ ∀ f ∈ run.failures, f.unit ∈ g.orderIds := by
  obtain ⟨hnodup, hmem⟩ :=
    nodup_of_perm_append (List.perm_append_comm.trans (h.names_perm hnames))
  exact ⟨hnodup, fun _ hf => hmem _ (List.mem_map_of_mem hf)⟩

/-- The handles of a report are read off along the build order. -/
theorem report_succeeded
    (h : run.Done g p may)
    (hnames : ∀ c outcome, may c outcome → Names c outcome)
    (stamp : Stamp) :
    (run.report stamp g p).succeeded =
      g.orderIds.filterMap fun id => run.succeeded.find? fun a => a.unitId == id :=
  Sorted.byRank_eq_filterMap g.orderIds_nodup (h.succeeded_names hnames).1
    (h.succeeded_names hnames).2

/-- The failures of a report are read off along the build order. -/
theorem report_failed
    (h : run.Done g p may)
    (hnames : ∀ c outcome, may c outcome → Names c outcome)
    (stamp : Stamp) :
    (run.report stamp g p).failed =
      g.orderIds.filterMap fun id => run.failures.find? fun f => f.unit == id :=
  Sorted.byRank_eq_filterMap g.orderIds_nodup (h.failures_names hnames).1
    (h.failures_names hnames).2

end Done

theorem succeeded_perm
    (run : Run β)
    (stamp : Stamp)
    (g : Graph)
    (p : Plan) :
    (run.report stamp g p).succeeded.Perm run.succeeded :=
  Sorted.byRank_perm _ _

theorem failed_perm
    (run : Run β)
    (stamp : Stamp)
    (g : Graph)
    (p : Plan) :
    (run.report stamp g p).failed.Perm run.failures :=
  Sorted.byRank_perm _ _

theorem report_state
    (run : Run β)
    (stamp : Stamp)
    (g : Graph)
    (p : Plan) :
    (run.report stamp g p).state =
      if (run.report stamp g p).failed.isEmpty then .completed else .failed := by
  rw [(run.failed_perm stamp g p).isEmpty_eq]
  rfl

/-- A report is one of success iff there are no failures. -/
theorem isSuccess_report_iff
    {run : Run β}
    {stamp : Stamp}
    {g : Graph}
    {p : Plan} :
    (run.report stamp g p).isSuccess = true ↔ run.failures = [] := by
  rw [Report.isSuccess, report_state, (run.failed_perm stamp g p).isEmpty_eq]
  cases run.failures <;> simp

theorem mem_rootFailures_iff
    (run : Run β)
    (stamp : Stamp)
    (g : Graph)
    (p : Plan)
    {f : Failure} :
    f ∈ (run.report stamp g p).rootFailures ↔ f ∈ run.roots := by
  rw [Report.rootFailures, Run.roots, List.mem_filter, List.mem_filter,
    (run.failed_perm stamp g p).mem_iff]

end Run

/-- What a report tells about the build that it was made of. -/
structure Report.Accounts
    (r : Report)
    (g : Graph)
    (run : Run β) : Prop where
  order : r.order = g.orderIds
  topological : IsBuildOrder g.units r.order
  /-- Every unit is in one of the lists, and only once. -/
  once : (r.succeeded.map (·.unitId) ++ r.failed.map (·.unit)).Perm (g.units.map (·.id))
  /-- Every builder that was called came to an end. -/
  ended : run.calls.Perm (run.returned.map (·.1))
  built : ∀ h, h ∈ r.succeeded ↔ ∃ c, (c, .built h) ∈ run.returned
  /-- The failures that are no cancellations are those of builders that failed or broke down. -/
  roots : ∀ f, f ∈ r.rootFailures ↔
    ∃ c o, (c, o) ∈ run.returned ∧ o.failure? c.unit.id = some f
  cancelled : ∀ id, (∃ f ∈ r.failed, f.isCancelled = true ∧ f.unit = id) ↔
    ∃ root ∈ r.rootFailures, ∃ ids, g.transitiveDependents root.unit = .ok ids ∧ id ∈ ids
  others : ∀ u ∈ g.units,
    (∀ root ∈ r.rootFailures, root.unit ≠ u.id ∧
      ∀ ids, g.transitiveDependents root.unit = .ok ids → u.id ∉ ids) →
    ∃ h ∈ r.succeeded, h.unitId = u.id
  succeeded_sorted : (r.succeeded.map (·.unitId)).Sublist r.order
  failed_sorted : (r.failed.map (·.unit)).Sublist r.order
  state : r.state = .completed ↔ r.failed = []

namespace Run.Done

variable
  {g : Graph}
  {p : Plan}
  {may : Call β → Outcome → Prop}
  {run : Run β}

/-- The cancelled units of a report are the transitive dependents of the units whose builders
failed. -/
theorem report_cancelled_iff
    (h : run.Done g p may)
    (stamp : Stamp)
    {id : String} :
    (∃ f ∈ (run.report stamp g p).failed, f.isCancelled = true ∧ f.unit = id) ↔
      ∃ root ∈ (run.report stamp g p).rootFailures, ∃ ids,
        g.transitiveDependents root.unit = .ok ids ∧ id ∈ ids := by
  have hcancelled : (∃ f ∈ (run.report stamp g p).failed, f.isCancelled = true ∧ f.unit = id) ↔
      id ∈ run.cancelled := by
    simp only [cancelled, List.mem_map, List.mem_filter, (run.failed_perm stamp g p).mem_iff,
      and_assoc]
  have hdependents : ∀ f ∈ run.roots, ∃ ids, g.transitiveDependents f.unit = .ok ids ∧
      ∀ id, id ∈ ids ↔ DependsVia g.units id f.unit := by
    intro f hf
    obtain ⟨c, o, hc, ho⟩ := h.ledger.mem_roots_iff.mp hf
    rw [Outcome.unit_of_failure? ho]
    exact g.mem_transitiveDependents_iff (h.ledger.known c (h.ledger.mem_calls_of_mem_returned hc))
  rw [hcancelled, h.mem_cancelled_iff]
  constructor
  · rintro ⟨f, hf, hvia⟩
    obtain ⟨ids, hids, hmem⟩ := hdependents f hf
    exact ⟨f, (run.mem_rootFailures_iff stamp g p).mpr hf, ids, hids, (hmem id).mpr hvia⟩
  · rintro ⟨f, hf, ids, hids, hid⟩
    have hroot := (run.mem_rootFailures_iff stamp g p).mp hf
    obtain ⟨ids', hids', hmem⟩ := hdependents f hroot
    rw [hids] at hids'
    cases hids'
    exact ⟨f, hroot, (hmem id).mp hid⟩

theorem accounts
    (h : run.Done g p may)
    (hnames : ∀ c outcome, may c outcome → Names c outcome)
    (stamp : Stamp) :
    (run.report stamp g p).Accounts g run := by
  have hsucceeded := run.succeeded_perm stamp g p
  have hfailed := run.failed_perm stamp g p
  have honce : ((run.report stamp g p).succeeded.map (·.unitId) ++
      (run.report stamp g p).failed.map (·.unit)).Perm (g.units.map (·.id)) :=
    ((hsucceeded.map _).append (hfailed.map _)).trans (h.names_perm hnames)
  refine
    { order := rfl, topological := ⟨g.orderIds_perm, g.orderIds_topological⟩, once := honce
      ended := h.calls_perm, built := ?_, roots := ?_
      cancelled := fun _ => h.report_cancelled_iff stamp, others := ?_
      succeeded_sorted := ?_, failed_sorted := ?_, state := ?_ }
  · intro handle
    rw [hsucceeded.mem_iff, h.ledger.mem_succeeded_iff]
  · intro f
    rw [run.mem_rootFailures_iff, h.ledger.mem_roots_iff]
  · intro u hu hspared
    have hmem := honce.mem_iff.mpr (List.mem_map_of_mem hu)
    rcases List.mem_append.mp hmem with hbuilt | hlost
    · obtain ⟨handle, hhandle, hid⟩ := List.mem_map.mp hbuilt
      exact ⟨handle, hhandle, hid⟩
    · obtain ⟨f, hf, hid⟩ := List.mem_map.mp hlost
      cases hc : f.isCancelled with
      | true =>
          obtain ⟨root, hroot, ids, hids, hin⟩ := (h.report_cancelled_iff stamp).mp ⟨f, hf, hc, hid⟩
          exact absurd hin ((hspared root hroot).2 ids hids)
      | false =>
          have hroot : f ∈ (run.report stamp g p).rootFailures :=
            List.mem_filter.mpr ⟨hf, by simp [hc]⟩
          exact absurd hid (hspared f hroot).1
  · rw [h.report_succeeded hnames]
    exact map_filterMap_find?_sublist g.orderIds
  · rw [h.report_failed hnames]
    exact map_filterMap_find?_sublist g.orderIds
  · rw [run.report_state]
    cases (run.report stamp g p).failed <;> simp

end Run.Done

theorem build_eq_ok
    {e : Executor β σ}
    {g : Graph}
    {p : Plan}
    {w : σ}
    (h : (e.run g p w).1.fault = none)
    (stamp : Stamp) :
    build e stamp g p w = .ok ((e.run g p w).1.report stamp g p, (e.run g p w).2) := by
  simp only [build, h]

/-- Every build of an accepted plan gives a report, and the report tells what became of the
units. -/
theorem build_accounts
    {registry : Registry β}
    {runner : Runner β σ}
    {g : Graph}
    {p : Plan}
    (haccepted : p.check g = .ok ())
    (hbuilders : ∀ u ∈ g.units, (registry.get? u.kind).isSome)
    (hnames : runner.Respects Names)
    (limit : Option Nat)
    (stamp : Stamp)
    (w : σ) :
    ∃ r w', build (.ofLimit registry runner limit) stamp g p w = .ok (r, w') ∧
      r.Accounts g ((Executor.ofLimit registry runner limit).run g p w).1 := by
  have hserves : (Executor.ofLimit registry runner limit).Serves g p Names :=
    { accepted := haccepted
      builders := fun u hu => Registry.exists_require_iff.mpr (hbuilders u hu)
      respects := hnames }
  have hdone := Executor.run_done hserves w
  refine ⟨_, _, build_eq_ok hdone.going stamp, ?_⟩
  exact hdone.accounts (fun _ _ hn => hn) stamp

theorem frail_build_accounts :
    Plan.layered.check .layered = .ok () ∧
      (Executor.frail "cluster" none).runner.Respects Names ∧
      ∃ r w', build (.frail "cluster" none) ⟨"build", none, none⟩ .layered .layered [1] =
          .ok (r, w') ∧
        r.Accounts .layered ((Executor.frail "cluster" none).run .layered .layered [1]).1 ∧
        r.failed = [⟨"cluster", .panicked "out of capacity"⟩, ⟨"nodes", .cancelled "cluster"⟩,
          ⟨"addons", .cancelled "cluster"⟩] := by
  have hserves := Executor.frail_serves "cluster" none
  have hbuilders : ∀ u ∈ Graph.layered.units,
      ((⟨[], some ()⟩ : Registry Unit).get? u.kind).isSome := fun _ _ => rfl
  obtain ⟨r, w', hbuild, haccounts⟩ := build_accounts hserves.accepted hbuilders hserves.respects
    none ⟨"build", none, none⟩ [1]
  refine ⟨hserves.accepted, hserves.respects, r, w', hbuild, haccounts, ?_⟩
  have hfailed : (build (.frail "cluster" none) ⟨"build", none, none⟩ .layered .layered [1]).map
      (fun s => s.1.failed) = .ok [⟨"cluster", .panicked "out of capacity"⟩,
        ⟨"nodes", .cancelled "cluster"⟩, ⟨"addons", .cancelled "cluster"⟩] := by
    cbv
  have hbuild' : build (.frail "cluster" none) ⟨"build", none, none⟩ .layered .layered [1] =
      .ok (r, w') := hbuild
  rw [hbuild'] at hfailed
  exact Except.ok.inj hfailed

end Provision
