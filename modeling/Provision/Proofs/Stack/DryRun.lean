import Provision.Proofs.Build.Determinism
import Provision.Stack.DryRun

/-!
# Dry runs

The one builder of a dry run takes units of every kind, and it asks nothing of a unit: it makes up
an identifier from the names of the deployment, which all units share.  So either every call ends
with a handle, or the first one that is made ends with an error.

**With names.**  No call fails, so every unit is called, with the handles of all its dependencies.
These carry the identifiers that the dependencies would get.

**Without names.**  No unit ever has a handle, so no unit that depends on another one is called.
Units without dependencies cannot be cancelled, and so fail.

**Results.**
* `DryRun.outcome_built_iff`: when a call ends with a handle.
* `DryRun.build_isSuccess_iff`: a dry run of an accepted plan gives a report, and when it is one of
  success.
* `DryRun.build_allOrNone`: what a dry run reports about every unit, however its calls end.
-/

namespace Provision

/-- The context names the synthesizer, or else the host, and the hosted account. -/
def Context.NamesDeployment (c : Context) : Prop :=
  (c.synthesizer.isSome ∨ c.host.id.isSome) ∧ c.hosted.id.isSome

theorem Naming.exists_deployment_iff
    {c : Context} :
    (∃ d, deployment c = .ok d) ↔ c.NamesDeployment := by
  rw [deployment, Context.synthesizerName?, Context.NamesDeployment]
  cases c.synthesizer <;> cases c.host.id <;> cases c.hosted.id <;> simp

/-- Calls end as the builders behave. -/
theorem Clock.runner_respects
    {β : Type}
    {behave : Call β → Behaviour}
    {may : Call β → Outcome → Prop}
    (h : ∀ c, may c (behave c).outcome) :
    (Clock.runner behave).Respects may :=
  fun _ _ _ => h _

namespace DryRun

variable {g : Graph} {p : Plan}

/-- The handle that a dry run gives for a unit: it has the identifier that the unit would get, and
those of its direct dependencies in the order of their names. -/
structure Rehearses (c : Context) (g : Graph) (u : Resource) (h : Handle) : Prop where
  unit : h.unitId = u.id
  kind : h.kind = u.kind
  identifier : DryRun.identifier c u = .ok h.identifier
  dependsOn : ∃ ids, h.output? "dependsOn" = some (.texts ids) ∧
    List.Forall₂ (fun d id => ∃ v ∈ g.units, v.id = d ∧ DryRun.identifier c v = .ok id)
      (Sorted.texts u.dependsOn) ids

/-- What a dry run reports about a unit that it cannot name: the builder fails on units without
dependencies, and is not called for the others. -/
structure GivesUp (c : Context) (u : Resource) (f : Failure) : Prop where
  unit : f.unit = u.id
  failed : u.dependsOn = [] → ∃ e, identifier c u = .error e ∧ f.reason = .failed e.message
  cancelled : u.dependsOn ≠ [] → ∃ d ∈ u.dependsOn, f.reason = .cancelled d

/-- Calls end as in a dry run. -/
def Dry (c : Context) {β : Type} (call : Call β) (outcome : Outcome) : Prop :=
  outcome = (behaviour c call).outcome

section Ends

variable {β : Type} {c : Context} {call : Call β}

theorem exists_identifier_iff
    {u : Resource} :
    (∃ id, identifier c u = .ok id) ↔ c.NamesDeployment := by
  rw [← Naming.exists_deployment_iff, identifier, Naming.named]
  cases Naming.deployment c with
  | error e => exact iff_of_false nofun nofun
  | ok d => exact iff_of_true ⟨_, rfl⟩ ⟨d, rfl⟩

theorem outcome_of_identifier
    {id : String}
    (h : identifier c call.unit = .ok id) :
    ∃ handle, (behaviour c call).outcome = .built handle ∧
      handle.unitId = call.unit.id ∧ handle.kind = call.unit.kind ∧ handle.identifier = id ∧
      handle.output? "dependsOn" =
        some (.texts ((Entries.values call.dependencies).map (·.identifier))) := by
  refine ⟨_, by rw [behaviour, handle, h]; rfl, rfl, rfl, rfl, ?_⟩
  exact Entries.find?_insert_self _ _ _

theorem outcome_of_error
    {e : BuildError}
    (h : identifier c call.unit = .error e) :
    (behaviour c call).outcome = .failed e := by
  rw [behaviour, handle, h]
  rfl

/-- A call ends with a handle iff the context names the deployment. -/
theorem outcome_built_iff :
    (∃ h, (behaviour c call).outcome = .built h) ↔ c.NamesDeployment := by
  rw [← exists_identifier_iff (u := call.unit)]
  cases hid : identifier c call.unit with
  | ok id =>
      obtain ⟨handle, hends, _⟩ := outcome_of_identifier hid
      exact iff_of_true ⟨handle, hends⟩ ⟨id, rfl⟩
  | error e =>
      rw [outcome_of_error hid]
      exact iff_of_false nofun nofun

theorem dry_names
    (call : Call β)
    (outcome : Outcome)
    (h : Dry c call outcome) :
    Names call outcome := by
  intro handle hbuilt
  rw [h] at hbuilt
  cases hid : identifier c call.unit with
  | error e =>
      rw [outcome_of_error hid] at hbuilt
      cases hbuilt
  | ok id =>
      obtain ⟨_, hends, hunit, _⟩ := outcome_of_identifier hid
      rw [hends] at hbuilt
      cases hbuilt
      exact hunit

end Ends

section Report

variable {β : Type} {run : Run β} {c : Context}

/-- With names no unit fails. -/
theorem failures_eq_nil
    (h : run.Done g p (Dry c))
    (hnamed : c.NamesDeployment) :
    run.failures = [] := by
  refine h.failures_eq_nil_iff.mpr ?_
  rintro ⟨call, outcome⟩ hreturned
  obtain ⟨handle, hbuilt⟩ := outcome_built_iff.mpr hnamed
  exact ⟨handle, (h.ledger.ends _ hreturned).trans hbuilt⟩

/-- With names every unit has a handle, which was made from those of its dependencies. -/
theorem exists_handle
    (h : run.Done g p (Dry c))
    (hnamed : c.NamesDeployment)
    {u : Resource}
    (hu : u ∈ g.units) :
    ∃ handle, Entries.find? u.id run.handles = some handle ∧
      handle.unitId = u.id ∧ handle.kind = u.kind ∧ identifier c u = .ok handle.identifier ∧
      handle.output? "dependsOn" =
        some (.texts ((Entries.values (run.dependenciesOf u)).map (·.identifier))) := by
  have hspared : ∀ d ∈ u.dependsOn, d ∉ run.failed := by
    rw [h.ledger.failed, failures_eq_nil h hnamed]
    exact fun _ _ => List.not_mem_nil
  obtain ⟨call, outcome, hreturned, rfl, hgiven, hfound, _⟩ :=
    h.of_spared_dependencies dry_names hu hspared
  obtain ⟨id, hid⟩ := exists_identifier_iff.mpr hnamed
  obtain ⟨handle, hends, hunit, hkind, rfl, hdeps⟩ := outcome_of_identifier hid
  have hbuilt : outcome = .built handle := (h.ledger.ends _ hreturned).trans hends
  rw [hbuilt] at hfound
  exact ⟨handle, hfound, hunit, hkind, hid, hgiven ▸ hdeps⟩

theorem exists_rehearses
    (h : run.Done g p (Dry c))
    (hnamed : c.NamesDeployment)
    {u : Resource}
    (hu : u ∈ g.units) :
    ∃ handle, Entries.find? u.id run.handles = some handle ∧ Rehearses c g u handle := by
  obtain ⟨handle, hfound, hunit, hkind, hid, hdeps⟩ := exists_handle h hnamed hu
  refine ⟨handle, hfound, hunit, hkind, hid, _, hdeps, ?_⟩
  have hcarried := h.ledger.unitId_of_find? dry_names
  have hready : ∀ d ∈ u.dependsOn, run.hasHandle d = true := by
    intro d hd
    obtain ⟨v, hv, rfl⟩ := List.mem_map.mp (g.known hu hd)
    obtain ⟨other, hother, _⟩ := exists_handle h hnamed hv
    exact Run.hasHandle_iff.mpr ⟨other, hother⟩
  rw [← Run.keys_dependenciesOf hcarried hready, Entries.keys, Entries.values, List.map_map,
    List.forall₂_map_left_iff, List.forall₂_map_right_iff, List.forall₂_same]
  rintro ⟨d, other⟩ hmem
  have hgiven := (run.dependenciesOf_ordered u).find?_of_mem hmem
  rw [Run.find?_dependenciesOf hcarried] at hgiven
  split at hgiven
  · rename_i hd
    obtain ⟨v, hv, rfl⟩ := List.mem_map.mp (g.known hu hd)
    obtain ⟨own, hown, _, _, hownId, _⟩ := exists_handle h hnamed hv
    rw [hown] at hgiven
    cases hgiven
    exact ⟨v, hv, rfl, hownId⟩
  · cases hgiven

/-- Without names no unit has a handle. -/
theorem succeeded_eq_nil
    (h : run.Done g p (Dry c))
    (hnamed : ¬ c.NamesDeployment) :
    run.succeeded = [] := by
  refine List.eq_nil_iff_forall_not_mem.mpr fun handle hhandle => ?_
  obtain ⟨call, hreturned⟩ := h.ledger.mem_succeeded_iff.mp hhandle
  exact hnamed (outcome_built_iff.mp ⟨handle, (h.ledger.ends _ hreturned).symm⟩)

theorem exists_givesUp
    (h : run.Done g p (Dry c))
    (hnamed : ¬ c.NamesDeployment)
    {u : Resource}
    (hu : u ∈ g.units) :
    ∃ f, run.failure? u.id = some f ∧ GivesUp c u f := by
  cases hdeps : u.dependsOn with
  | nil =>
      have hspared : ∀ d ∈ u.dependsOn, d ∉ run.failed := by
        rw [hdeps]
        exact fun _ hd => absurd hd List.not_mem_nil
      obtain ⟨call, outcome, hreturned, rfl, _, _, hfailure⟩ :=
        h.of_spared_dependencies dry_names hu hspared
      cases hid : identifier c call.unit with
      | ok id => exact absurd (exists_identifier_iff.mp ⟨id, hid⟩) hnamed
      | error e =>
          have hends : outcome = .failed e :=
            (h.ledger.ends _ hreturned).trans (outcome_of_error hid)
          rw [hends] at hfailure
          exact ⟨_, hfailure, rfl, fun _ => ⟨e, hid, rfl⟩, fun hsome => absurd hdeps hsome⟩
  | cons d rest =>
      have hd : d ∈ u.dependsOn := hdeps ▸ List.mem_cons_self
      have hlost : d ∈ run.failed := by
        have hnames := h.names_perm dry_names
        rw [succeeded_eq_nil h hnamed, List.map_nil, List.nil_append] at hnames
        rw [h.ledger.failed]
        exact hnames.mem_iff.mpr (g.known hu hd)
      obtain ⟨_, _, d', hfailure⟩ := h.of_lost_dependency dry_names hu hd hlost
      obtain ⟨hmem, _⟩ := (h.failure?_eq_some_iff dry_names).mp hfailure
      obtain ⟨v, hv, hunit, hd', _⟩ := h.excused _ hmem d' rfl
      obtain rfl := g.eq_of_id_eq hv hu hunit
      exact ⟨_, hfailure, rfl, fun hnone => absurd hnone (by simp [hdeps]), fun _ => ⟨d', hd', rfl⟩⟩

end Report

/-- The executor of a dry run: one builder for all kinds. -/
def executor (c : Context) (limit : Option Nat) : Executor Unit Clock :=
  .ofLimit (Registry.empty.withFallback ()) (Clock.runner (behaviour c)) limit

theorem serves
    {σ : Type}
    {runner : Runner Unit σ}
    {c : Context}
    (haccepted : p.check g = .ok ())
    (hdry : runner.Respects (Dry c))
    (limit : Option Nat) :
    (Executor.ofLimit (Registry.empty.withFallback ()) runner limit).Serves g p (Dry c) where
  accepted := haccepted
  builders := fun _ _ => ⟨(), rfl⟩
  respects := hdry

/-- A dry run of an accepted plan gives a report. All units have handles iff the context names the
deployment, unless there are none. -/
theorem build_isSuccess_iff
    (haccepted : p.check g = .ok ())
    (c : Context)
    (limit : Option Nat)
    (stamp : Stamp) :
    ∃ r w, build (executor c limit) stamp g p .zero = .ok (r, w) ∧
      (r.isSuccess = true ↔ g.units = [] ∨ c.NamesDeployment) := by
  have hdry : (executor c limit).runner.Respects (Dry c) := Clock.runner_respects fun _ => rfl
  have hdone := Executor.run_done (serves haccepted hdry limit) .zero
  refine ⟨_, _, build_eq_ok hdone.going stamp, ?_⟩
  rw [Run.isSuccess_report_iff]
  constructor
  · intro hnone
    by_cases hunits : g.units = []
    · exact Or.inl hunits
    · -- the builder of any unit was called, and only the context decides how that ends
      obtain ⟨u, hu⟩ := List.exists_mem_of_ne_nil g.units hunits
      obtain ⟨⟨call, outcome⟩, hreturned, _⟩ := hdone.exists_returned hnone hu
      obtain ⟨h, rfl⟩ := hdone.failures_eq_nil_iff.mp hnone _ hreturned
      exact Or.inr (outcome_built_iff.mp ⟨h, (hdone.ledger.ends _ hreturned).symm⟩)
  · rintro (hunits | hnamed)
    · refine hdone.failures_eq_nil_iff.mpr fun e hreturned => ?_
      have hunit := hdone.ledger.known _ (hdone.ledger.mem_calls_of_mem_returned hreturned)
      rw [hunits] at hunit
      exact absurd hunit List.not_mem_nil
    · exact failures_eq_nil hdone hnamed

/-- What is found name by name corresponds to the units one by one. -/
theorem forall₂_filterMap_ids
    {α : Type}
    {R : Resource → α → Prop}
    {find : String → Option α}
    {units : List Resource}
    (h : ∀ u ∈ units, ∃ a, find u.id = some a ∧ R u a) :
    List.Forall₂ R units ((units.map (·.id)).filterMap find) := by
  induction units with
  | nil => exact .nil
  | cons u rest ih =>
      obtain ⟨⟨a, ha, hR⟩, hrest⟩ := List.forall_mem_cons.mp h
      rw [List.map_cons, List.filterMap_cons, ha]
      exact .cons hR (ih hrest)

/-- In a dry run of an accepted plan, whatever the limit and the order in which calls end, either
all units have handles, or none has: the units without dependencies fail and the others are
cancelled. -/
theorem build_allOrNone
    {σ : Type}
    {runner : Runner Unit σ}
    {c : Context}
    (haccepted : p.check g = .ok ())
    (hdry : runner.Respects (Dry c))
    (limit : Option Nat)
    (stamp : Stamp)
    (w : σ) :
    ∃ r w', build (.ofLimit (Registry.empty.withFallback ()) runner limit) stamp g p w =
        .ok (r, w') ∧
      (c.NamesDeployment →
        r.failed = [] ∧ List.Forall₂ (Rehearses c g) g.order r.succeeded) ∧
      (¬ c.NamesDeployment →
        r.succeeded = [] ∧ List.Forall₂ (GivesUp c) g.order r.failed) := by
  have hdone := Executor.run_done (serves haccepted hdry limit) w
  have hknown : ∀ u ∈ g.order, u ∈ g.units := fun _ hu => g.order_earliestFirst.mem_units hu
  refine ⟨_, _, build_eq_ok hdone.going stamp, fun hnamed => ⟨?_, ?_⟩, fun hnamed => ⟨?_, ?_⟩⟩
  · rw [← List.perm_nil, ← failures_eq_nil hdone hnamed]
    exact Run.failed_perm _ stamp g p
  · rw [hdone.report_succeeded dry_names]
    refine forall₂_filterMap_ids fun u hu => ?_
    rw [hdone.find?_succeeded dry_names]
    exact exists_rehearses hdone hnamed (hknown u hu)
  · rw [← List.perm_nil, ← succeeded_eq_nil hdone hnamed]
    exact Run.succeeded_perm _ stamp g p
  · rw [hdone.report_failed dry_names]
    exact forall₂_filterMap_ids fun u hu => exists_givesUp hdone hnamed (hknown u hu)

/-- A host that provisions a hosted account. -/
def shop : Context :=
  { Context.empty with
    host := { Scope.empty with id := some "ops" }
    hosted := { Scope.empty with id := some "shop", account := some "42", region := some "west" } }

/-- The runner that follows a list of picks and ends calls as in a dry run. -/
def scripted (c : Context) : Runner Unit (List Nat) :=
  .scripted fun call => (behaviour c call).outcome

theorem layered_build_allOrNone :
    Plan.layered.check .layered = .ok () ∧
      (scripted shop).Respects (Dry shop) ∧ shop.NamesDeployment ∧
      (scripted .empty).Respects (Dry .empty) ∧ ¬ Context.empty.NamesDeployment ∧
      (∃ r w', build (.ofLimit (Registry.empty.withFallback ()) (scripted shop) (some 2))
          ⟨"build", none, none⟩ .layered .layered [1] = .ok (r, w') ∧
        r.failed = [] ∧
        List.Forall₂ (Rehearses shop .layered) Graph.layered.order r.succeeded) ∧
      ∃ r w', build (.ofLimit (Registry.empty.withFallback ()) (scripted .empty) (some 2))
          ⟨"build", none, none⟩ .layered .layered [1] = .ok (r, w') ∧
        r.succeeded = [] ∧ List.Forall₂ (GivesUp .empty) Graph.layered.order r.failed := by
  have haccepted : Plan.layered.check .layered = .ok () := by cbv
  have hdry : ∀ c, (scripted c).Respects (Dry c) :=
    fun c => Runner.scripted_respects fun _ => rfl
  have hshop : shop.NamesDeployment := ⟨Or.inr rfl, rfl⟩
  have hempty : ¬ Context.empty.NamesDeployment := by
    rintro ⟨_, hsome⟩
    cases hsome
  obtain ⟨r, w, hbuild, hnamed, _⟩ := build_allOrNone haccepted (hdry shop) (some 2)
    ⟨"build", none, none⟩ [1]
  obtain ⟨r', w', hbuild', _, hunnamed⟩ := build_allOrNone haccepted (hdry .empty) (some 2)
    ⟨"build", none, none⟩ [1]
  exact ⟨haccepted, hdry shop, hshop, hdry .empty, hempty, ⟨r, w, hbuild, hnamed hshop⟩,
    r', w', hbuild', hunnamed hempty⟩

end DryRun
end Provision
