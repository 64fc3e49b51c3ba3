import Provision.Proofs.Build.Supply
import Provision.Proofs.Graph.Order

/-!
# Cancelled units

**Cause.**  A unit is cancelled while other units are built because a dependency failed, or at the
end of its partition because a dependency has no handle.  In the second case the dependency may
itself be among the units that are left, but all of these are cancelled in turn.  So in the end every
cancelled unit has a dependency that failed.

**Effect.**  A unit with a dependency that failed is never called, since builders are called with
the handles of all dependencies.

**Results.**
* `Executor.run_done`: a build comes to an end, with nothing pending and nothing in flight.
* `Run.Done.mem_cancelled_iff`: the cancelled units are those downstream of a unit whose builder
  failed.
* `Run.Done.failures_eq_nil_iff`: when there are no failures.
-/

namespace Provision

open Relation

variable {β σ : Type}

namespace Run

/-- The units that were passed over wait for a dependency, or there is no room for a call. -/
def Held (limit : Option Nat) (run : Run β) : Prop :=
  ∀ u ∈ run.pending.take run.cursor,
    (∃ d ∈ u.dependsOn, run.hasHandle d = false) ∨ run.hasCapacity limit = false

/-- The units that were passed over wait for a call in flight, or for a dependency. -/
def Patient (run : Run β) : Prop :=
  ∀ u ∈ run.pending.take run.cursor,
    run.tasks ≠ [] ∨ ∃ d ∈ u.dependsOn, run.hasHandle d = false

/-- A unit is left at the end of its partition. -/
def Left (run : Run β) (id : String) : Prop :=
  run.tasks = [] ∧ run.pending.length ≤ run.cursor ∧ id ∈ run.pending.map (·.id)

/-- Units were cancelled for dependencies of which something holds. -/
def CancelledFor (g : Graph) (cause : String → Prop) (failures : List Failure) : Prop :=
  ∀ f ∈ failures, ∀ d, f.reason = .cancelled d →
    ∃ u ∈ g.units, u.id = f.unit ∧ d ∈ u.dependsOn ∧ cause d

/-- Units were cancelled for dependencies that failed, or that are left themselves. -/
def Excused (g : Graph) (run : Run β) : Prop :=
  CancelledFor g (fun d => d ∈ run.failed ∨ run.Left d) run.failures

variable
  {g : Graph}
  {p : Plan}
  {registry : Registry β}
  {limit : Option Nat}
  {may : Call β → Outcome → Prop}
  {k : Nat}
  {run run' : Run β}

theorem Held.move
    (h : run.Held limit)
    (hmove : run.Move registry limit may run') :
    run'.Held limit := by
  cases hmove with
  | cancel =>
      intro v hv
      have hv' : v ∈ (run.pending.eraseIdx run.cursor).take run.cursor := hv
      rw [List.take_eraseIdx_eq_take_of_le _ _ _ (Nat.le_refl _)] at hv'
      exact h v hv'
  | launch _ _ room =>
      intro v hv
      have hv' : v ∈ (run.pending.eraseIdx run.cursor).take run.cursor := hv
      rw [List.take_eraseIdx_eq_take_of_le _ _ _ (Nat.le_refl _)] at hv'
      -- as long as there is room, units are passed over for their dependencies only
      refine Or.inl ((h v hv').resolve_right fun hfull => ?_)
      rw [room] at hfull
      cases hfull
  | pass looked _ held =>
      intro v hv
      rw [List.take_add_one, looked] at hv
      rcases List.mem_append.mp hv with hv | hv
      · exact h v hv
      · rw [List.mem_singleton.mp hv]
        exact held
  | join =>
      intro v hv
      exact absurd hv List.not_mem_nil
  | abandon swept =>
      intro v hv
      refine h v ?_
      rw [List.take_of_length_le swept]
      exact List.mem_of_mem_tail (List.mem_of_mem_take hv)

/-- There is no room for a call only if calls are in flight, under a limit that lets any run. -/
theorem tasks_ne_nil_of_full
    (hlimit : ∀ n ∈ limit, 0 < n)
    (hfull : run.hasCapacity limit = false) :
    run.tasks ≠ [] := by
  cases hlim : limit with
  | none =>
      rw [hlim] at hfull
      cases hfull
  | some n =>
      have hpos := hlimit n hlim
      rw [hlim] at hfull
      simp only [hasCapacity, decide_eq_false_iff_not, Nat.not_lt] at hfull
      exact List.length_pos_iff.mp (Nat.lt_of_lt_of_le hpos hfull)

theorem Held.patient
    (h : run.Held limit)
    (hlimit : ∀ n ∈ limit, 0 < n) :
    run.Patient := by
  intro v hv
  rcases h v hv with hmissing | hfull
  · exact Or.inr hmissing
  · exact Or.inl (tasks_ne_nil_of_full hlimit hfull)

/-- A unit that is left at the end of its partition has a dependency without a handle. -/
theorem Patient.missing
    (h : run.Patient)
    (swept : run.pending.length ≤ run.cursor)
    (idle : run.tasks = [])
    {u : Resource}
    (hu : u ∈ run.pending) :
    ∃ d ∈ u.dependsOn, (u.dependsOn.find? fun d => !run.hasHandle d) = some d ∧
      run.hasHandle d = false := by
  have hu' : u ∈ run.pending.take run.cursor := by rwa [List.take_of_length_le swept]
  obtain ⟨d, hd, hmissing⟩ := (h u hu').resolve_left fun hbusy => hbusy idle
  cases hfind : u.dependsOn.find? fun d => !run.hasHandle d with
  | none =>
      have hnot := List.find?_eq_none.mp hfind d hd
      simp [hmissing] at hnot
  | some d' =>
      have hmissing' := List.find?_some hfind
      exact ⟨d', List.mem_of_find?_eq_some hfind, rfl, by simpa using hmissing'⟩

theorem CancelledFor.append
    {cause : String → Prop}
    {failures failures' : List Failure}
    (h : CancelledFor g cause failures)
    (h' : CancelledFor g cause failures') :
    CancelledFor g cause (failures ++ failures') := by
  intro f hf
  rcases List.mem_append.mp hf with hf | hf
  · exact h f hf
  · exact h' f hf

theorem CancelledFor.imp
    {cause cause' : String → Prop}
    {failures : List Failure}
    (h : CancelledFor g cause failures)
    (himp : ∀ d, cause d → cause' d) :
    CancelledFor g cause' failures := by
  intro f hf d hreason
  obtain ⟨u, hu, hid, hd, hcause⟩ := h f hf d hreason
  exact ⟨u, hu, hid, hd, himp d hcause⟩

/-- The units that were cancelled stay excused by a move before the end of a partition. -/
theorem Excused.of_busy
    (h : run.Excused g)
    (hbusy : ¬ (run.tasks = [] ∧ run.pending.length ≤ run.cursor))
    (hfailed : run.failed ⊆ run'.failed) :
    CancelledFor g (fun d => d ∈ run'.failed ∨ run'.Left d) run.failures := by
  refine h.imp ?_
  rintro d (hlost | ⟨hidle, hswept, _⟩)
  · exact Or.inl (hfailed hlost)
  · exact absurd ⟨hidle, hswept⟩ hbusy

theorem not_swept_of_looked
    {u : Resource}
    (looked : run.pending[run.cursor]? = some u) :
    ¬ (run.tasks = [] ∧ run.pending.length ≤ run.cursor) := by
  rintro ⟨_, hswept⟩
  rw [List.getElem?_eq_none hswept] at looked
  cases looked

/-- A dependency without a handle of a unit that is left failed, or is left too. -/
theorem Ledger.left_of_missing
    (h : run.Ledger g p may k)
    (hsound : run.Sound g)
    (haccepted : p.check g = .ok ())
    (idle : run.tasks = [])
    {u : Resource}
    (hu : u ∈ run.pending)
    {d : String}
    (hd : d ∈ u.dependsOn)
    (hmissing : run.hasHandle d = false) :
    d ∈ run.failed ∨ d ∈ run.pending.map (·.id) := by
  have hentered : u.id ∈ p.entered k := by
    refine h.placed.mem_iff.mp ?_
    exact List.mem_append_left _ (List.mem_append_left _ (List.mem_map_of_mem hu))
  have hbegun := Plan.entered_closed haccepted (hsound.known u hu) hentered hd
  rcases h.settled hbegun with hleft | hflight | hhandle | hlost
  · exact Or.inr hleft
  · rw [idle] at hflight
    exact absurd hflight List.not_mem_nil
  · rw [hmissing] at hhandle
    cases hhandle
  · exact Or.inl hlost

/-- A unit that is left is cancelled for a dependency that failed, or is left too. -/
theorem Excused.abandon
    (h : run.Excused g)
    (hsound : run.Sound g)
    (hledger : run.Ledger g p may k)
    (hpatient : run.Patient)
    (haccepted : p.check g = .ok ())
    (swept : run.pending.length ≤ run.cursor)
    (idle : run.tasks = [])
    {u : Resource}
    (first : run.pending.head? = some u) :
    (run.abandon u).Excused g := by
  obtain ⟨rest, hrest⟩ := List.head?_eq_some_iff.mp first
  -- what was left is given up now, or is still left
  have hleft : ∀ d, d ∈ run.failed ∨ d ∈ run.pending.map (·.id) →
      d ∈ (run.abandon u).failed ∨ (run.abandon u).Left d := by
    rintro d (hlost | hd)
    · exact Or.inl (List.mem_append_left _ hlost)
    · rw [hrest, List.map_cons] at hd
      rcases List.mem_cons.mp hd with rfl | hd
      · exact Or.inl (List.mem_append_right _ (List.mem_singleton_self _))
      · refine Or.inr ⟨idle, ?_, ?_⟩
        · have hlen := List.length_tail (l := run.pending)
          simp only [Run.abandon, fail]
          omega
        · simpa [Run.abandon, fail, hrest] using hd
  refine CancelledFor.append (h.imp ?_) ?_
  · rintro d (hlost | ⟨_, _, hd⟩)
    · exact hleft d (Or.inl hlost)
    · exact hleft d (Or.inr hd)
  · have hu : u ∈ run.pending := List.mem_of_mem_head? first
    obtain ⟨d, hd, hfind, hmissing⟩ := hpatient.missing swept idle hu
    intro f hf d' hreason
    rw [List.mem_singleton.mp hf] at hreason ⊢
    rw [hfind] at hreason
    cases hreason
    refine ⟨u, hsound.known u hu, rfl, hd, hleft d ?_⟩
    exact hledger.left_of_missing hsound haccepted idle hu hd hmissing

theorem Excused.move
    (h : run.Excused g)
    (hsound : run.Sound g)
    (hledger : run.Ledger g p may k)
    (hpatient : run.Patient)
    (haccepted : p.check g = .ok ())
    (hmove : run.Move registry limit may run') :
    run'.Excused g := by
  have hfailed := hmove.failed_subset
  cases hmove with
  | @cancel u d looked needed lost =>
      refine (h.of_busy (not_swept_of_looked looked) hfailed).append ?_
      intro f hf d' hreason
      rw [List.mem_singleton.mp hf] at hreason ⊢
      cases hreason
      have hu := hsound.known u (List.mem_of_getElem? looked)
      exact ⟨u, hu, rfl, needed, Or.inl (hfailed lost)⟩
  | launch looked => exact h.of_busy (not_swept_of_looked looked) hfailed
  | pass looked => exact h.of_busy (not_swept_of_looked looked) hfailed
  | join i outcome =>
      refine (h.of_busy (fun hidle => ?_) hfailed).append ?_
      · exact absurd hidle.1 (List.length_pos_iff.mp (Nat.lt_of_le_of_lt (Nat.zero_le i) i.isLt))
      · intro f hf d hreason
        have hroot := Outcome.isCancelled_of_failure? (Option.mem_toList.mp hf)
        rw [Failure.isCancelled_iff.mpr ⟨d, hreason⟩] at hroot
        cases hroot
  | abandon swept idle first =>
      exact h.abandon hsound hledger hpatient haccepted swept idle first

/-- A build that came to its end. -/
structure Done
    (g : Graph)
    (p : Plan)
    (may : Call β → Outcome → Prop)
    (run : Run β) : Prop where
  accepted : p.check g = .ok ()
  going : run.fault = none
  pending : run.pending = []
  tasks : run.tasks = []
  ledger : run.Ledger g p may p.partitions.length
  supplied : run.Supplied
  excused : CancelledFor g (· ∈ run.failed) run.failures

namespace Done

theorem nodup
    (h : run.Done g p may) :
    (p.entered p.partitions.length).Nodup :=
  Plan.entered_nodup h.accepted _

/-- Every unit was either called or cancelled, and only one of these. -/
theorem units_perm
    (h : run.Done g p may) :
    (run.calls.map (·.unit.id) ++ run.cancelled).Perm (g.units.map (·.id)) := by
  have hplaced := h.ledger.placed
  rw [h.pending, List.map_nil, List.nil_append, Plan.entered_all] at hplaced
  exact hplaced.trans (Plan.ids_perm h.accepted)

/-- Every call ended. -/
theorem calls_perm
    (h : run.Done g p may) :
    run.calls.Perm (run.returned.map (·.1)) := by
  have hcalled := h.ledger.called
  rwa [h.tasks, List.map_nil, List.nil_append] at hcalled

/-- For every unit a call ended, or it was cancelled, and only one of these. -/
theorem returned_perm
    (h : run.Done g p may) :
    (run.returned.map (·.1.unit.id) ++ run.cancelled).Perm (g.units.map (·.id)) := by
  have hcalls : (run.returned.map (·.1.unit.id)).Perm (run.calls.map (·.unit.id)) := by
    simpa [List.map_map, Function.comp_def] using (h.calls_perm.map (·.unit.id)).symm
  exact (hcalls.append_right _).trans h.units_perm

theorem mem_failed_of_mem_cancelled
    (h : run.Done g p may)
    {id : String}
    (hid : id ∈ run.cancelled) :
    id ∈ run.failed :=
  h.ledger.mem_failed_iff.mpr (Or.inl hid)

/-- A unit with a dependency that failed is cancelled. -/
theorem cancelled_of_failed
    (h : run.Done g p may)
    {u : Resource}
    (hu : u ∈ g.units)
    {d : String}
    (hd : d ∈ u.dependsOn)
    (hlost : d ∈ run.failed) :
    u.id ∈ run.cancelled := by
  rcases List.mem_append.mp (h.units_perm.mem_iff.mpr (List.mem_map_of_mem hu)) with hcall | hid
  · -- a call would have had a handle of the dependency
    obtain ⟨c, hc, hid⟩ := List.mem_map.mp hcall
    obtain rfl := g.eq_of_id_eq (h.ledger.known c hc) hu hid
    exact absurd hlost (h.ledger.disjoint h.nodup ((h.supplied c hc).1 d hd))
  · exact hid

/-- A unit that was cancelled has a dependency that failed. -/
theorem exists_failed_of_cancelled
    (h : run.Done g p may)
    {u : Resource}
    (hu : u ∈ g.units)
    (hid : u.id ∈ run.cancelled) :
    ∃ d ∈ u.dependsOn, d ∈ run.failed := by
  obtain ⟨f, hf, hunit⟩ := List.mem_map.mp hid
  obtain ⟨hf, hcancelled⟩ := List.mem_filter.mp hf
  obtain ⟨d, hreason⟩ := Failure.isCancelled_iff.mp hcancelled
  obtain ⟨v, hv, hvid, hd, hlost⟩ := h.excused f hf d hreason
  obtain rfl := g.eq_of_id_eq hv hu (hvid.trans hunit)
  exact ⟨d, hd, hlost⟩

/-- The cancelled units are those downstream of a unit whose builder failed. -/
theorem mem_cancelled_iff
    (h : run.Done g p may)
    {id : String} :
    id ∈ run.cancelled ↔ ∃ f ∈ run.roots, DependsVia g.units id f.unit := by
  constructor
  · intro hid
    have hmem : id ∈ g.units.map (·.id) := h.units_perm.mem_iff.mp (List.mem_append_right _ hid)
    obtain ⟨u, hu, rfl⟩ := List.mem_map.mp hmem
    refine g.dependency_induction
      (P := fun id => id ∈ run.cancelled → ∃ f ∈ run.roots, DependsVia g.units id f.unit)
      ?_ u hu hid
    intro v hv ih hcancelled
    obtain ⟨d, hd, hlost⟩ := h.exists_failed_of_cancelled hv hcancelled
    rcases h.ledger.mem_failed_iff.mp hlost with hlost | ⟨f, hf, rfl⟩
    · obtain ⟨f, hf, hvia⟩ := ih d hd hlost
      exact ⟨f, hf, TransGen.head ⟨v, hv, rfl, hd⟩ hvia⟩
    · exact ⟨f, hf, TransGen.single ⟨v, hv, rfl, hd⟩⟩
  · rintro ⟨f, hf, hvia⟩
    have hlost : f.unit ∈ run.failed := h.ledger.mem_failed_iff.mpr (Or.inr ⟨f, hf, rfl⟩)
    induction hvia using TransGen.head_induction_on with
    | single hstep =>
        obtain ⟨u, hu, rfl, hd⟩ := hstep
        exact h.cancelled_of_failed hu hd hlost
    | head hstep _ ih =>
        obtain ⟨u, hu, rfl, hd⟩ := hstep
        exact h.cancelled_of_failed hu hd (h.mem_failed_of_mem_cancelled ih)

/-- Nothing failed and nothing was cancelled iff every call that ended gave a handle. -/
theorem failures_eq_nil_iff
    (h : run.Done g p may) :
    run.failures = [] ↔ ∀ e ∈ run.returned, ∃ handle, e.2 = .built handle := by
  constructor
  · rintro hnone ⟨c, o⟩ he
    have hroots : run.roots = [] := by rw [roots, hnone, List.filter_nil]
    cases hfailure : o.failure? c.unit.id with
    | none =>
        cases o with
        | built handle => exact ⟨handle, rfl⟩
        | failed e => cases hfailure
        | panicked message => cases hfailure
    | some f =>
        have hf : f ∈ run.roots := h.ledger.mem_roots_iff.mpr ⟨c, o, he, hfailure⟩
        rw [hroots] at hf
        exact absurd hf List.not_mem_nil
  · intro hbuilt
    have hroots : ∀ f, f ∉ run.roots := by
      intro f hf
      obtain ⟨c, o, he, hfailure⟩ := h.ledger.mem_roots_iff.mp hf
      obtain ⟨handle, rfl⟩ := hbuilt _ he
      cases hfailure
    refine List.eq_nil_iff_forall_not_mem.mpr fun f hf => ?_
    cases hcancelled : f.isCancelled with
    | false => exact hroots f (List.mem_filter.mpr ⟨hf, by rw [hcancelled]; rfl⟩)
    | true =>
        have hid : f.unit ∈ run.cancelled :=
          List.mem_map_of_mem (List.mem_filter.mpr ⟨hf, hcancelled⟩)
        obtain ⟨root, hroot, _⟩ := h.mem_cancelled_iff.mp hid
        exact hroots root hroot

/-- In a build without failures the builder of every unit was called. -/
theorem exists_returned
    (h : run.Done g p may)
    (hnone : run.failures = [])
    {u : Resource}
    (hu : u ∈ g.units) :
    ∃ e ∈ run.returned, e.1.unit = u := by
  have hid := h.units_perm.mem_iff.mpr (List.mem_map_of_mem (f := (·.id)) hu)
  rw [cancelled, hnone, List.filter_nil, List.map_nil, List.append_nil] at hid
  obtain ⟨c, hc, hunit⟩ := List.mem_map.mp hid
  obtain ⟨e, he, rfl⟩ := List.mem_map.mp (h.calls_perm.mem_iff.mp hc)
  exact ⟨e, he, g.eq_of_id_eq (h.ledger.known _ hc) hu hunit⟩

end Done
end Run

namespace Executor

variable {e : Executor β σ} {g : Graph} {p : Plan} {w : σ} {may : Call β → Outcome → Prop}

theorem Reachable.held
    (hserves : e.Serves g p may)
    {k : Nat}
    {s : Run β × σ}
    (h : e.Reachable g p w k s) :
    s.1.Held e.limit := by
  refine h.invariant hserves (I := fun _ run => run.Held e.limit) ?_ ?_ ?_
  · exact fun v hv => absurd hv List.not_mem_nil
  · exact fun _ _ _ _ _ _ _ _ v hv => absurd hv List.not_mem_nil
  · exact fun _ _ _ _ hmove hheld => hheld.move hmove

theorem Reachable.patient
    (hserves : e.Serves g p may)
    {k : Nat}
    {s : Run β × σ}
    (h : e.Reachable g p w k s) :
    s.1.Patient :=
  (h.held hserves).patient e.limit_pos

theorem Reachable.excused
    (hserves : e.Serves g p may)
    {k : Nat}
    {s : Run β × σ}
    (h : e.Reachable g p w k s) :
    s.1.Excused g := by
  refine h.invariant hserves (I := fun _ run => run.Excused g) ?_ ?_ ?_
  · exact fun f hf => absurd hf List.not_mem_nil
  · intro k s part _ hpending _ _ hexcused
    refine hexcused.imp ?_
    rintro d (hlost | ⟨_, _, hleft⟩)
    · exact Or.inl hlost
    · rw [hpending] at hleft
      exact absurd hleft List.not_mem_nil
  · intro k s run' hreach hmove hexcused
    exact hexcused.move (hreach.sound hserves) (hreach.ledger hserves) (hreach.patient hserves)
      hserves.accepted hmove

/-- A build comes to an end, with nothing pending and nothing in flight. -/
theorem run_done
    (hserves : e.Serves g p may)
    (w : σ) :
    (e.run g p w).1.Done g p may := by
  obtain ⟨hreach, hover⟩ := run_reachable (w := w) hserves
  have hgoing := (hreach.sound hserves).going
  obtain ⟨hpending, htasks⟩ := step_eq_none hgoing hover
  refine
    { accepted := hserves.accepted, going := hgoing, pending := hpending, tasks := htasks
      ledger := hreach.ledger hserves, supplied := hreach.supplied hserves, excused := ?_ }
  refine (hreach.excused hserves).imp ?_
  rintro d (hlost | ⟨_, _, hleft⟩)
  · exact hlost
  · rw [hpending] at hleft
    exact absurd hleft List.not_mem_nil

end Executor
end Provision
