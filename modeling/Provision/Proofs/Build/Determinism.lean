import Provision.Proofs.Build.Report

/-!
# Builds do not depend on the schedule

The end of a call is taken to be a function of the unit and of the handles that its builder received.
The sequential build goes through the units in build order, cancels a unit if a dependency failed, and
ends its call otherwise.

**Simulation.**  Whatever the partitions, the limit and the order in which calls end, what becomes of
a unit in a build is what becomes of it in the sequential build: by induction along the build order,
its dependencies have the same handles, and the same of them failed.  Only the dependency that a
cancelled unit was cancelled for may be another one.

**Results.**
* `Run.Done.sequential_follows`: a build that came to its end agrees with the sequential build.
* `builds_agree`: any two builds give the same result, which is that of the sequential build.
-/

namespace Provision

variable {β σ σ' : Type}

/-- Calls end by a rule. -/
def ByRule
    (behave : Resource → Handles → Outcome)
    (c : Call β)
    (outcome : Outcome) : Prop :=
  outcome = behave c.unit c.dependencies

/-- The failure without the dependency that the unit was cancelled for. -/
def Failure.masked (f : Failure) : Failure :=
  match f.reason with
  | .cancelled _ => ⟨f.unit, .cancelled ""⟩
  | _ => f

/-- Two reports tell the same, up to the dependencies that units were cancelled for. -/
structure Report.SameResult (r r' : Report) : Prop where
  order : r.order = r'.order
  succeeded : r.succeeded = r'.succeeded
  state : r.state = r'.state
  failed : r.failed.map Failure.masked = r'.failed.map Failure.masked

/-- A report tells what became of the units in a run, up to the dependencies that units were
cancelled for. -/
structure Report.ResultOf
    (r : Report)
    (g : Graph)
    (run : Run β) : Prop where
  order : r.order = g.orderIds
  succeeded : r.succeeded = run.succeeded
  state : r.state = if run.failures.isEmpty then .completed else .failed
  failed : r.failed.map Failure.masked = run.failures.map Failure.masked

namespace Run

/-- Builds a unit when its dependencies have handles or failures. -/
def buildNext
    (behave : Resource → Handles → Outcome)
    (run : Run β)
    (u : Resource) : Run β :=
  match u.dependsOn.find? run.hasFailed with
  | some d => run.fail u.id (.cancelled d)
  | none => run.settle u (behave u (run.dependenciesOf u))

/-- Builds units one after the other. -/
def sequential
    (behave : Resource → Handles → Outcome)
    (units : List Resource) : Run β :=
  units.foldl (buildNext behave) (.start (.ok ()))

/-- The failure of a unit. -/
def failure? (run : Run β) (id : String) : Option Failure :=
  run.failures.find? fun f => f.unit == id

/-- A sequential build that has come through some units agrees with a build about them. -/
structure Follows
    (run : Run β)
    (ids : List String)
    (seq : Run β) : Prop where
  handles : ∀ id, Entries.find? id seq.handles =
    if id ∈ ids then Entries.find? id run.handles else none
  failed : ∀ id, id ∈ seq.failed ↔ id ∈ ids ∧ id ∈ run.failed
  succeeded : seq.succeeded = ids.filterMap fun id => Entries.find? id run.handles
  failures : seq.failures.map Failure.masked = (ids.filterMap run.failure?).map Failure.masked

variable
  {g : Graph}
  {p : Plan}
  {may : Call β → Outcome → Prop}
  {behave : Resource → Handles → Outcome}
  {run seq : Run β}

namespace Done

theorem failure?_eq_some_iff
    (h : run.Done g p may)
    (hnames : ∀ c outcome, may c outcome → Names c outcome)
    {id : String}
    {f : Failure} :
    run.failure? id = some f ↔ f ∈ run.failures ∧ f.unit = id :=
  find?_key_eq_some_iff (h.failures_names hnames).1

/-- A unit has a failure iff it is among the failed ones. -/
theorem failure?_eq_none_iff
    (h : run.Done g p may)
    {id : String} :
    run.failure? id = none ↔ id ∉ run.failed := by
  rw [failure?, List.find?_eq_none, h.ledger.failed, List.mem_map]
  simp

/-- The handles of the report are the recorded ones. -/
theorem find?_succeeded
    (h : run.Done g p may)
    (hnames : ∀ c outcome, may c outcome → Names c outcome)
    (id : String) :
    (run.succeeded.find? fun a => a.unitId == id) = Entries.find? id run.handles := by
  refine Option.ext fun handle => ?_
  rw [find?_key_eq_some_iff (h.succeeded_names hnames).1, h.ledger.handles,
    h.ledger.mem_succeeded_iff]
  constructor
  · rintro ⟨⟨c, hc⟩, rfl⟩
    exact ⟨c, (hnames c _ (h.ledger.ends _ hc) handle rfl).symm, hc⟩
  · rintro ⟨c, rfl, hc⟩
    exact ⟨⟨c, hc⟩, hnames c _ (h.ledger.ends _ hc) handle rfl⟩

/-- A unit with a dependency that failed has a cancellation and no handle. -/
theorem of_lost_dependency
    (h : run.Done g p may)
    (hnames : ∀ c outcome, may c outcome → Names c outcome)
    {u : Resource}
    (hu : u ∈ g.units)
    {d : String}
    (hd : d ∈ u.dependsOn)
    (hlost : d ∈ run.failed) :
    Entries.find? u.id run.handles = none ∧ u.id ∈ run.failed ∧
      ∃ d', run.failure? u.id = some ⟨u.id, .cancelled d'⟩ := by
  have hcancelled := h.cancelled_of_failed hu hd hlost
  have hfailed := h.mem_failed_of_mem_cancelled hcancelled
  refine ⟨?_, hfailed, ?_⟩
  · rw [← hasHandle_eq_false_iff, Bool.eq_false_iff]
    exact fun hhandle => h.ledger.disjoint h.nodup hhandle hfailed
  · obtain ⟨f, hf, hunit⟩ := List.mem_map.mp hcancelled
    obtain ⟨hf, hcancelled⟩ := List.mem_filter.mp hf
    obtain ⟨d', hreason⟩ := Failure.isCancelled_iff.mp hcancelled
    refine ⟨d', ?_⟩
    rw [← hunit, ← hreason]
    exact (h.failure?_eq_some_iff hnames).mpr ⟨hf, rfl⟩

/-- The call of a unit whose dependencies did not fail ended as it had to. -/
theorem of_spared_dependencies
    (h : run.Done g p may)
    (hnames : ∀ c outcome, may c outcome → Names c outcome)
    {u : Resource}
    (hu : u ∈ g.units)
    (hspared : ∀ d ∈ u.dependsOn, d ∉ run.failed) :
    ∃ c o, (c, o) ∈ run.returned ∧ c.unit = u ∧ c.dependencies = run.dependenciesOf u ∧
      Entries.find? u.id run.handles = o.handle? ∧ run.failure? u.id = o.failure? u.id := by
  have hcalled : u.id ∈ run.calls.map (·.unit.id) := by
    refine (List.mem_append.mp (h.units_perm.mem_iff.mpr (List.mem_map_of_mem hu))).resolve_right ?_
    intro hcancelled
    obtain ⟨d, hd, hlost⟩ := h.exists_failed_of_cancelled hu hcancelled
    exact hspared d hd hlost
  obtain ⟨c, hc, hid⟩ := List.mem_map.mp hcalled
  obtain rfl := g.eq_of_id_eq (h.ledger.known c hc) hu hid
  obtain ⟨⟨c', o⟩, hreturned, rfl⟩ := List.mem_map.mp (h.calls_perm.mem_iff.mp hc)
  refine ⟨c', o, hreturned, rfl, (h.supplied c' hc).2, ?_, ?_⟩
  · refine Option.ext fun handle => ?_
    rw [h.ledger.handles, Outcome.handle?_eq_some_iff]
    constructor
    · rintro ⟨c, hid, hc⟩
      cases h.ledger.returned_inj h.nodup hc hreturned hid
      rfl
    · rintro rfl
      exact ⟨c', rfl, hreturned⟩
  · cases ho : o.failure? c'.unit.id with
    | some f =>
        have hroot := h.ledger.mem_roots_iff.mpr ⟨c', o, hreturned, ho⟩
        refine (h.failure?_eq_some_iff hnames).mpr ⟨(List.mem_filter.mp hroot).1, ?_⟩
        exact Outcome.unit_of_failure? ho
    | none =>
        refine h.failure?_eq_none_iff.mpr (h.ledger.disjoint h.nodup ?_)
        cases o with
        | built new => exact hasHandle_iff.mpr ⟨new, (h.ledger.handles _ _).mpr ⟨c', rfl, hreturned⟩⟩
        | failed e => cases ho
        | panicked message => cases ho

end Done

theorem find?_settle
    (run : Run β)
    (u : Resource)
    (outcome : Outcome)
    (id : String) :
    Entries.find? id (run.settle u outcome).handles =
      if id = u.id then outcome.handle?.or (Entries.find? id run.handles)
      else Entries.find? id run.handles := by
  cases outcome with
  | built h =>
      by_cases hid : id = u.id
      · subst hid
        simp [settle, Outcome.handle?]
      · rw [if_neg hid]
        exact Entries.find?_insert_of_ne h run.handles hid
  | failed e => simp [settle, fail, Outcome.handle?]
  | panicked message => simp [settle, fail, Outcome.handle?]

theorem settle_succeeded
    (run : Run β)
    (u : Resource)
    (outcome : Outcome) :
    (run.settle u outcome).succeeded = run.succeeded ++ outcome.handle?.toList := by
  cases outcome <;> simp [settle, fail, Outcome.handle?]

theorem settle_failures
    (run : Run β)
    (u : Resource)
    (outcome : Outcome) :
    (run.settle u outcome).failures = run.failures ++ (outcome.failure? u.id).toList := by
  cases outcome <;> simp [settle, fail, Outcome.failure?]

theorem mem_settle_failed_iff
    (run : Run β)
    (u : Resource)
    (outcome : Outcome)
    {id : String} :
    id ∈ (run.settle u outcome).failed ↔
      id ∈ run.failed ∨ id = u.id ∧ outcome.failure? u.id ≠ none := by
  cases outcome <;> simp [settle, fail, Outcome.failure?]

namespace Follows

variable {ids : List String}

theorem start
    (run : Run β) :
    run.Follows [] (.start (.ok ())) where
  handles := fun _ => rfl
  failed := by simp [Run.start]
  succeeded := rfl
  failures := rfl

/-- A unit with a dependency that failed is cancelled, as it was in the build. -/
theorem cancel
    (h : run.Follows ids seq)
    (hdone : run.Done g p may)
    (hnames : ∀ c outcome, may c outcome → Names c outcome)
    {u : Resource}
    (hu : u ∈ g.units)
    (hfresh : u.id ∉ ids)
    {d : String}
    (hd : d ∈ u.dependsOn)
    (hlost : d ∈ run.failed) :
    run.Follows (ids ++ [u.id]) (seq.fail u.id (.cancelled d)) := by
  obtain ⟨hnone, hfailed, d', hfailure⟩ := hdone.of_lost_dependency hnames hu hd hlost
  refine ⟨?_, ?_, ?_, ?_⟩
  · intro id
    refine (h.handles id).trans ?_
    by_cases hid : id = u.id
    · subst hid
      simp [hfresh, hnone]
    · simp [hid]
  · intro id
    by_cases hid : id = u.id
    · subst hid
      simp [fail, hfailed]
    · simp [fail, h.failed, hid]
  · rw [filterMap_concat, hnone]
    simpa [fail] using h.succeeded
  · rw [filterMap_concat, hfailure]
    simp [fail, h.failures, Failure.masked]

/-- A unit is called, and its call ends as it did in the build. -/
theorem settle
    (h : run.Follows ids seq)
    (hdone : run.Done g p may)
    {u : Resource}
    (hfresh : u.id ∉ ids)
    {outcome : Outcome}
    (hhandle : Entries.find? u.id run.handles = outcome.handle?)
    (hfailure : run.failure? u.id = outcome.failure? u.id) :
    run.Follows (ids ++ [u.id]) (seq.settle u outcome) := by
  refine ⟨?_, ?_, ?_, ?_⟩
  · intro id
    rw [find?_settle, h.handles]
    by_cases hid : id = u.id
    · subst hid
      simp [hfresh, hhandle]
    · simp [hid]
  · intro id
    rw [mem_settle_failed_iff, h.failed, ← hfailure, ne_eq, hdone.failure?_eq_none_iff, not_not,
      List.mem_append, List.mem_singleton]
    constructor
    · rintro (⟨hid, hlost⟩ | ⟨rfl, hlost⟩)
      · exact ⟨Or.inl hid, hlost⟩
      · exact ⟨Or.inr rfl, hlost⟩
    · rintro ⟨hid | rfl, hlost⟩
      · exact Or.inl ⟨hid, hlost⟩
      · exact Or.inr ⟨rfl, hlost⟩
  · rw [settle_succeeded, filterMap_concat, h.succeeded, hhandle]
  · rw [settle_failures, filterMap_concat, List.map_append, List.map_append, h.failures, hfailure]

/-- What becomes of the next unit is what became of it in the build. -/
theorem next
    (h : run.Follows ids seq)
    (hdone : run.Done g p (ByRule behave))
    (hnames : ∀ c outcome, ByRule (β := β) behave c outcome → Names c outcome)
    {u : Resource}
    (hu : u ∈ g.units)
    (hfresh : u.id ∉ ids)
    (hdeps : ∀ d ∈ u.dependsOn, d ∈ ids) :
    run.Follows (ids ++ [u.id]) (seq.buildNext behave u) := by
  rw [buildNext]
  cases hfind : u.dependsOn.find? seq.hasFailed with
  | some d =>
      have hlost := List.contains_iff_mem.mp (List.find?_some hfind)
      exact h.cancel hdone hnames hu hfresh (List.mem_of_find?_eq_some hfind)
        ((h.failed d).mp hlost).2
  | none =>
      have hspared : ∀ d ∈ u.dependsOn, d ∉ run.failed := by
        intro d hd hlost
        have hnot := List.find?_eq_none.mp hfind d hd
        exact hnot (List.contains_iff_mem.mpr ((h.failed d).mpr ⟨hdeps d hd, hlost⟩))
      obtain ⟨c, o, hc, rfl, hgiven, hhandle, hfailure⟩ :=
        hdone.of_spared_dependencies hnames hu hspared
      -- both calls received the same handles
      have hsame : seq.dependenciesOf c.unit = run.dependenciesOf c.unit := by
        refine dependenciesOf_congr fun d hd => ?_
        rw [h.handles, if_pos (hdeps d hd)]
      have ho : o = behave c.unit (seq.dependenciesOf c.unit) := by
        rw [hsame, ← hgiven]
        exact hdone.ledger.ends _ hc
      dsimp only
      rw [← ho]
      exact h.settle hdone hfresh hhandle hfailure

/-- The sequential build goes on in agreement with the build. -/
theorem foldl
    (h : run.Follows ids seq)
    (hdone : run.Done g p (ByRule behave))
    (hnames : ∀ c outcome, ByRule (β := β) behave c outcome → Names c outcome)
    {rest : List Resource}
    (hrest : ∀ u ∈ rest, u ∈ g.units)
    (hnodup : (ids ++ rest.map (·.id)).Nodup)
    (htop : TopologicalAfter g.units ids (rest.map (·.id))) :
    run.Follows (ids ++ rest.map (·.id)) (rest.foldl (buildNext behave) seq) := by
  induction rest generalizing ids seq with
  | nil =>
      rw [List.map_nil, List.append_nil]
      exact h
  | cons u rest ih =>
      obtain ⟨hu, hrest⟩ := List.forall_mem_cons.mp hrest
      obtain ⟨hdeps, htop⟩ := topologicalAfter_cons_iff.mp htop
      rw [List.map_cons, List.append_cons] at hnodup ⊢
      have hfresh : u.id ∉ ids := fun hmem => (List.nodup_append.mp
        (List.nodup_append.mp hnodup).1).2.2 _ hmem _ (List.mem_singleton_self _) rfl
      exact ih (h.next hdone hnames hu hfresh fun d hd => hdeps d ⟨u, hu, rfl, hd⟩)
        hrest hnodup htop

end Follows

/-- A build that came to its end agrees with the sequential build. -/
theorem Done.sequential_follows
    (h : run.Done g p (ByRule behave))
    (hnames : ∀ c outcome, ByRule (β := β) behave c outcome → Names c outcome) :
    run.Follows g.orderIds (sequential behave g.order) := by
  have hfollows : run.Follows ([] ++ g.order.map (·.id))
      (g.order.foldl (buildNext behave) (.start (.ok ()))) :=
    (Follows.start run).foldl h hnames (fun _ hu => g.order_earliestFirst.mem_units hu)
      g.orderIds_nodup g.orderIds_topological
  exact hfollows

/-- The report of a build tells the result of the sequential build. -/
theorem Done.resultOf
    (h : run.Done g p (ByRule behave))
    (hnames : ∀ c outcome, ByRule (β := β) behave c outcome → Names c outcome)
    (stamp : Stamp) :
    (run.report stamp g p).ResultOf g (sequential (β := β) behave g.order) := by
  have hfollows := h.sequential_follows hnames
  have hfailed : (run.report stamp g p).failed.map Failure.masked =
      (sequential (β := β) behave g.order).failures.map Failure.masked := by
    rw [h.report_failed hnames, hfollows.failures]
    rfl
  refine ⟨rfl, ?_, ?_, hfailed⟩
  · rw [h.report_succeeded hnames, hfollows.succeeded]
    exact List.filterMap_congr fun id _ => h.find?_succeeded hnames id
  · rw [run.report_state]
    have hempty := congrArg List.isEmpty hfailed
    rw [List.isEmpty_map, List.isEmpty_map] at hempty
    rw [hempty]

end Run

theorem Report.ResultOf.sameResult
    {g : Graph}
    {run : Run β}
    {r r' : Report}
    (h : r.ResultOf g run)
    (h' : r'.ResultOf g run) :
    r.SameResult r' where
  order := h.order.trans h'.order.symm
  succeeded := h.succeeded.trans h'.succeeded.symm
  state := h.state.trans h'.state.symm
  failed := h.failed.trans h'.failed.symm

/-- A build whose calls end by a rule gives the result of the sequential build. -/
theorem build_resultOf
    {registry : Registry β}
    {runner : Runner β σ}
    {g : Graph}
    {p : Plan}
    {behave : Resource → Handles → Outcome}
    (hnames : ∀ u dependencies h, (behave u dependencies).handle? = some h → h.unitId = u.id)
    (haccepted : p.check g = .ok ())
    (hbuilders : ∀ u ∈ g.units, (registry.get? u.kind).isSome)
    (hrule : runner.Respects (ByRule behave))
    (limit : Option Nat)
    (stamp : Stamp)
    (w : σ) :
    ∃ r v, build (.ofLimit registry runner limit) stamp g p w = .ok (r, v) ∧
      r.ResultOf g (Run.sequential (β := β) behave g.order) := by
  have hserves : (Executor.ofLimit registry runner limit).Serves g p (ByRule behave) :=
    { accepted := haccepted
      builders := fun u hu => Registry.exists_require_iff.mpr (hbuilders u hu)
      respects := hrule }
  have hdone := Executor.run_done hserves w
  refine ⟨_, _, build_eq_ok hdone.going stamp, hdone.resultOf ?_ stamp⟩
  rintro c _ rfl h hbuilt
  exact hnames c.unit c.dependencies h hbuilt

/-- Two builds of the same units give the same result, whatever their plans, their limits and the
orders in which their calls end; it is the result of the sequential build. -/
theorem builds_agree
    {registry registry' : Registry β}
    {runner : Runner β σ}
    {runner' : Runner β σ'}
    {g : Graph}
    {p p' : Plan}
    {behave : Resource → Handles → Outcome}
    (hnames : ∀ u dependencies h, (behave u dependencies).handle? = some h → h.unitId = u.id)
    (haccepted : p.check g = .ok ())
    (haccepted' : p'.check g = .ok ())
    (hbuilders : ∀ u ∈ g.units, (registry.get? u.kind).isSome)
    (hbuilders' : ∀ u ∈ g.units, (registry'.get? u.kind).isSome)
    (hrule : runner.Respects (ByRule behave))
    (hrule' : runner'.Respects (ByRule behave))
    (limit limit' : Option Nat)
    (stamp stamp' : Stamp)
    (w : σ)
    (w' : σ') :
    ∃ r r' v v', build (.ofLimit registry runner limit) stamp g p w = .ok (r, v) ∧
      build (.ofLimit registry' runner' limit') stamp' g p' w' = .ok (r', v') ∧
      r.SameResult r' ∧
      r.ResultOf g (Run.sequential (β := β) behave g.order) ∧
      r'.ResultOf g (Run.sequential (β := β) behave g.order) := by
  obtain ⟨r, v, hbuild, hresult⟩ :=
    build_resultOf hnames haccepted hbuilders hrule limit stamp w
  obtain ⟨r', v', hbuild', hresult'⟩ :=
    build_resultOf hnames haccepted' hbuilders' hrule' limit' stamp' w'
  exact ⟨r, r', v, v', hbuild, hbuild', hresult.sameResult hresult', hresult, hresult'⟩

theorem frail_builds_agree :
    Plan.layered.check .layered = .ok () ∧
      (Plan.single .layered).check .layered = .ok () ∧
      (Executor.frail "nodes" none).runner.Respects (ByRule (breaking "nodes")) ∧
      ∃ r r' v v',
        build (.frail "nodes" (some 2)) ⟨"build", none, none⟩ .layered .layered [1, 1] =
          .ok (r, v) ∧
        build (.frail "nodes" none) ⟨"build", none, none⟩ .layered (.single .layered) [0, 1] =
          .ok (r', v') ∧
        r.SameResult r' := by
  have haccepted := (Executor.frail_serves "nodes" none).accepted
  have hsingle : (Plan.single .layered).check .layered = .ok () := by cbv
  have hbuilders : ∀ u ∈ Graph.layered.units,
      ((⟨[], some ()⟩ : Registry Unit).get? u.kind).isSome := fun _ _ => rfl
  have hbyrule : ∀ c : Call Unit, ByRule (breaking "nodes") c
      (breaking "nodes" c.unit c.dependencies) := fun _ => rfl
  have hrule : (Executor.frail "nodes" none).runner.Respects (ByRule (breaking "nodes")) :=
    Runner.scripted_respects hbyrule
  have hnames : ∀ u dependencies h, (breaking "nodes" u dependencies).handle? = some h →
      h.unitId = u.id := fun u dependencies =>
    breaking_names (β := Unit) "nodes" ⟨u, (), dependencies⟩
  obtain ⟨r, r', v, v', hbuild, hbuild', hsame, _⟩ := builds_agree hnames haccepted hsingle
    hbuilders hbuilders hrule hrule (some 2) none ⟨"build", none, none⟩ ⟨"build", none, none⟩
    [1, 1] [0, 1]
  exact ⟨haccepted, hsingle, hrule, r, r', v, v', hbuild, hbuild', hsame⟩

end Provision
