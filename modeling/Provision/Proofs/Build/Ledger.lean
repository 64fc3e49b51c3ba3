import Provision.Proofs.Build.Step
import Provision.Proofs.Lists

/-!
# What becomes of the units of a build

**Accounting.**  Every unit of the partitions that were begun is either pending, or its builder was
called, or it was cancelled, and only one of these.  Every call is either in flight, or it ended.  A
move takes a unit, or a call, from one place to another, so these are permutations that every move
keeps.

**Records.**  The handles, the failures that are no cancellations and the names of the failed units
are recorded when calls end, and are what the calls that ended give.

**Results.**
* `Executor.Reachable.ledger`: both hold in every reachable state.
* `Run.Ledger.settled`: a unit that was begun is pending, in flight, or has a handle or a failure.
* `Run.Ledger.disjoint`: no unit has both a handle and a failure.
-/

namespace Provision

variable {β σ : Type}

namespace Run

/-- The names of the units that were cancelled. -/
def cancelled (run : Run β) : List String :=
  (run.failures.filter fun f => f.isCancelled).map (·.unit)

/-- What is recorded about the calls that ended without a handle. -/
def roots (run : Run β) : List Failure :=
  run.failures.filter fun f => !f.isCancelled

/-- The books of a build whose first partitions were begun. -/
structure Ledger
    (g : Graph)
    (p : Plan)
    (may : Call β → Outcome → Prop)
    (k : Nat)
    (run : Run β) : Prop where
  placed : (run.pending.map (·.id) ++ run.calls.map (·.unit.id) ++ run.cancelled).Perm (p.entered k)
  called : run.calls.Perm (run.tasks.map (·.call) ++ run.returned.map (·.1))
  known : ∀ c ∈ run.calls, c.unit ∈ g.units
  ends : ∀ e ∈ run.returned, may e.1 e.2
  succeeded : run.succeeded = run.returned.filterMap fun e => e.2.handle?
  roots : run.roots = run.returned.filterMap fun e => e.2.failure? e.1.unit.id
  failed : run.failed = run.failures.map (·.unit)
  handles : ∀ id h, Entries.find? id run.handles = some h ↔
    ∃ c, c.unit.id = id ∧ (c, .built h) ∈ run.returned

/-- The failures are the cancellations and those of calls that ended. -/
theorem failures_perm
    (run : Run β) :
    (run.cancelled ++ run.roots.map (·.unit)).Perm (run.failures.map (·.unit)) := by
  rw [cancelled, Run.roots, ← List.map_append]
  exact (List.filter_append_perm (fun f => f.isCancelled) run.failures).map _

theorem hasHandle_iff
    {run : Run β}
    {id : String} :
    run.hasHandle id = true ↔ ∃ h, Entries.find? id run.handles = some h := by
  rw [hasHandle, Entries.hasKey, Option.isSome_iff_exists]

theorem hasHandle_eq_false_iff
    {run : Run β}
    {id : String} :
    run.hasHandle id = false ↔ Entries.find? id run.handles = none := by
  rw [hasHandle, Entries.hasKey, Option.isSome_eq_false_iff, Option.isNone_iff_eq_none]

theorem cancelled_ended
    (run : Run β)
    (i : Fin run.tasks.length)
    (outcome : Outcome) :
    (run.ended i outcome).cancelled = run.cancelled := by
  cases outcome <;> simp [ended, cancelled, Outcome.failure?, Failure.isCancelled]

theorem roots_ended
    (run : Run β)
    (i : Fin run.tasks.length)
    (outcome : Outcome) :
    (run.ended i outcome).roots =
      run.roots ++ (outcome.failure? (run.tasks.get i).call.unit.id).toList := by
  cases outcome <;> simp [ended, Run.roots, Outcome.failure?, Failure.isCancelled]

theorem take_perm
    {run : Run β}
    {u : Resource}
    (hlooked : run.pending[run.cursor]? = some u) :
    (u :: run.take.pending).Perm run.pending := by
  obtain ⟨hlt, rfl⟩ := List.getElem?_eq_some_iff.mp hlooked
  exact List.getElem_cons_eraseIdx_perm hlt

/-- A call that ends is no longer in flight. -/
theorem ended_perm
    (run : Run β)
    (i : Fin run.tasks.length)
    (outcome : Outcome) :
    ((run.ended i outcome).tasks.map (·.call) ++ (run.ended i outcome).returned.map (·.1)).Perm
      (run.tasks.map (·.call) ++ run.returned.map (·.1)) := by
  have htaken : ((run.tasks.get i).call :: (run.tasks.eraseIdx i).map (·.call)).Perm
      (run.tasks.map (·.call)) :=
    (List.getElem_cons_eraseIdx_perm i.isLt).map Task.call
  simp only [ended, List.map_append, List.map_cons, List.map_nil]
  rw [← List.append_assoc]
  refine (List.perm_append_singleton _ _).trans ?_
  rw [← List.cons_append]
  exact htaken.append_right _

namespace Ledger

variable {g : Graph} {p : Plan} {may : Call β → Outcome → Prop} {k : Nat} {run : Run β}

theorem calls_nodup
    (h : run.Ledger g p may k)
    (hnodup : (p.entered k).Nodup) :
    (run.calls.map (·.unit.id)).Nodup := by
  have hall := h.placed.nodup_iff.mpr hnodup
  exact (List.nodup_append.mp (List.nodup_append.mp hall).1).2.1

/-- No call in flight is for the unit of another call. -/
theorem tasks_returned_nodup
    (h : run.Ledger g p may k)
    (hnodup : (p.entered k).Nodup) :
    (run.tasks.map (·.call.unit.id) ++ run.returned.map (·.1.unit.id)).Nodup := by
  have hids := (h.called.map (·.unit.id)).nodup_iff.mp (h.calls_nodup hnodup)
  simpa [List.map_append, List.map_map, Function.comp_def] using hids

/-- The calls that ended are for different units. -/
theorem returned_inj
    (h : run.Ledger g p may k)
    (hnodup : (p.entered k).Nodup)
    {e e' : Call β × Outcome}
    (he : e ∈ run.returned)
    (he' : e' ∈ run.returned)
    (hid : e.1.unit.id = e'.1.unit.id) :
    e = e' :=
  List.inj_on_of_nodup_map (List.nodup_append.mp (h.tasks_returned_nodup hnodup)).2.1 he he' hid

theorem mem_calls_of_mem_returned
    (h : run.Ledger g p may k)
    {e : Call β × Outcome}
    (he : e ∈ run.returned) :
    e.1 ∈ run.calls :=
  h.called.mem_iff.mpr (List.mem_append_right _ (List.mem_map_of_mem he))

theorem start :
    (Run.start (β := β) (.ok ())).Ledger g p may 0 where
  placed := List.Perm.refl _
  called := List.Perm.refl _
  known := fun _ hc => absurd hc List.not_mem_nil
  ends := fun _ he => absurd he List.not_mem_nil
  succeeded := rfl
  roots := rfl
  failed := rfl
  handles := by simp [Run.start]

/-- The units of a partition that is begun become pending. -/
theorem enter
    (h : run.Ledger g p may k)
    (haccepted : p.check g = .ok ())
    (hpending : run.pending = [])
    (htasks : run.tasks = [])
    {part : Partition}
    (hnext : p.partitions[k]? = some part) :
    (run.enter g part).Ledger g p may (k + 1) where
  placed := by
    have hids : (part.units.filterMap g.unit?).map (·.id) = part.units := by
      rw [List.map_filterMap]
      refine (List.filterMap_congr ?_).trans List.filterMap_some
      intro id hid
      have hentered : id ∈ p.entered (k + 1) := by
        rw [Plan.entered_succ hnext]
        exact List.mem_append_right _ hid
      obtain ⟨u, hu, rfl⟩ := List.mem_map.mp (Plan.mem_units_of_mem_entered haccepted hentered)
      rw [g.unit?_eq_some_iff.mpr ⟨hu, rfl⟩]
      rfl
    have hplaced := h.placed
    rw [hpending, List.map_nil, List.nil_append] at hplaced
    rw [Plan.entered_succ hnext]
    simp only [Run.enter, hids, List.append_assoc]
    exact List.perm_append_comm.trans (hplaced.append_right part.units)
  called := by
    have hcalled := h.called
    rw [htasks] at hcalled
    exact hcalled
  known := h.known
  ends := h.ends
  succeeded := h.succeeded
  roots := h.roots
  failed := h.failed
  handles := h.handles

/-- The handles after the end of a call are those of the calls that ended. -/
theorem handles_ended
    (h : run.Ledger g p may k)
    (hnodup : (p.entered k).Nodup)
    (i : Fin run.tasks.length)
    (outcome : Outcome)
    (id : String)
    (handle : Handle) :
    Entries.find? id (run.ended i outcome).handles = some handle ↔
      ∃ c, c.unit.id = id ∧ (c, .built handle) ∈ (run.ended i outcome).returned := by
  -- the call that ends is the first one for its unit
  have hfresh : ∀ c o, (c, o) ∈ run.returned → c.unit.id ≠ (run.tasks.get i).call.unit.id := by
    intro c o hc heq
    refine (List.nodup_append.mp (h.tasks_returned_nodup hnodup)).2.2 _ ?_ _ ?_ heq.symm
    · exact List.mem_map_of_mem (List.getElem_mem i.isLt)
    · exact List.mem_map_of_mem hc
  have hold := h.handles id handle
  simp only [ended, List.mem_append, List.mem_singleton, Prod.mk.injEq]
  cases outcome with
  | built new =>
      simp only [Outcome.handle?, Outcome.built.injEq]
      by_cases hid : id = (run.tasks.get i).call.unit.id
      · rw [hid, Entries.find?_insert_self]
        constructor
        · intro hnew
          cases hnew
          exact ⟨_, rfl, Or.inr ⟨rfl, rfl⟩⟩
        · rintro ⟨c, hc, hmem | ⟨_, rfl⟩⟩
          · exact absurd hc (hfresh c _ hmem)
          · rfl
      · rw [Entries.find?_insert_of_ne _ _ hid, hold]
        constructor
        · rintro ⟨c, hc, hmem⟩
          exact ⟨c, hc, Or.inl hmem⟩
        · rintro ⟨c, hc, hmem | ⟨rfl, _⟩⟩
          · exact ⟨c, hc, hmem⟩
          · exact absurd hc.symm hid
  | failed e => simpa [Outcome.handle?] using hold
  | panicked message => simpa [Outcome.handle?] using hold

/-- A pending unit is cancelled. -/
theorem give_up
    (h : run.Ledger g p may k)
    {u : Resource}
    {rest : List Resource}
    (hpending : (u :: rest).Perm run.pending)
    (d : String) :
    ({ run with pending := rest }.fail u.id (.cancelled d)).Ledger g p may k where
  placed := by
    have hcancelled : ({ run with pending := rest }.fail u.id (.cancelled d)).cancelled =
        run.cancelled ++ [u.id] := by
      simp [fail, cancelled, Failure.isCancelled]
    rw [hcancelled]
    exact (perm_moved_last (hpending.map (·.id))).trans h.placed
  called := h.called
  known := h.known
  ends := h.ends
  succeeded := h.succeeded
  roots := by
    refine Eq.trans ?_ h.roots
    simp [fail, Run.roots, Failure.isCancelled]
  failed := by simp [fail, h.failed]
  handles := h.handles

/-- The builder of a pending unit is called. -/
theorem launch
    (h : run.Ledger g p may k)
    {u : Resource}
    (hu : u ∈ g.units)
    (looked : run.pending[run.cursor]? = some u)
    (builder : β) :
    (run.take.launch u builder).Ledger g p may k where
  placed := by
    simp only [Run.launch, List.map_append, List.map_cons, List.map_nil]
    exact (perm_moved_middle ((take_perm looked).map (·.id))).trans h.placed
  called := by
    simp only [Run.launch, List.map_append, List.map_cons, List.map_nil]
    refine (h.called.append_right _).trans ?_
    simp only [List.append_assoc]
    exact List.perm_append_comm.append_left _
  known := by
    intro c hc
    rcases List.mem_append.mp hc with hc | hc
    · exact h.known c hc
    · rw [List.mem_singleton.mp hc]
      exact hu
  ends := h.ends
  succeeded := h.succeeded
  roots := h.roots
  failed := h.failed
  handles := h.handles

/-- A call ends as it may. -/
theorem ended
    (h : run.Ledger g p may k)
    (hnodup : (p.entered k).Nodup)
    (i : Fin run.tasks.length)
    {outcome : Outcome}
    (hends : may (run.tasks.get i).call outcome) :
    (run.ended i outcome).Ledger g p may k where
  placed := by
    rw [cancelled_ended]
    exact h.placed
  called := h.called.trans (ended_perm run i outcome).symm
  known := h.known
  ends := by
    intro e he
    rcases List.mem_append.mp he with he | he
    · exact h.ends e he
    · rw [List.mem_singleton.mp he]
      exact hends
  succeeded := by cases outcome <;> simp [Run.ended, h.succeeded, Outcome.handle?]
  roots := by
    rw [roots_ended, h.roots]
    cases outcome <;> simp [Run.ended, Outcome.failure?]
  failed := by simp [Run.ended, h.failed]
  handles := h.handles_ended hnodup i outcome

theorem move
    (h : run.Ledger g p may k)
    (hsound : run.Sound g)
    (hnodup : (p.entered k).Nodup)
    {registry : Registry β}
    {limit : Option Nat}
    {run' : Run β}
    (hmove : Move registry limit may run run') :
    run'.Ledger g p may k := by
  cases hmove with
  | cancel looked => exact h.give_up (take_perm looked) _
  | launch looked => exact h.launch (hsound.known _ (List.mem_of_getElem? looked)) looked _
  | pass =>
      exact ⟨h.placed, h.called, h.known, h.ends, h.succeeded, h.roots, h.failed, h.handles⟩
  | join i _ _ ends => exact h.ended hnodup i ends
  | abandon _ _ first =>
      obtain ⟨rest, hrest⟩ := List.head?_eq_some_iff.mp first
      refine h.give_up ?_ _
      rw [hrest, List.tail_cons]

theorem mem_failed_iff
    (h : run.Ledger g p may k)
    {id : String} :
    id ∈ run.failed ↔ id ∈ run.cancelled ∨ ∃ f ∈ run.roots, f.unit = id := by
  simp only [h.failed, cancelled, Run.roots, List.mem_map, List.mem_filter]
  constructor
  · rintro ⟨f, hf, rfl⟩
    cases hc : f.isCancelled with
    | false => exact Or.inr ⟨f, ⟨hf, by simp [hc]⟩, rfl⟩
    | true => exact Or.inl ⟨f, ⟨hf, hc⟩, rfl⟩
  · rintro (⟨f, ⟨hf, _⟩, rfl⟩ | ⟨f, ⟨hf, _⟩, rfl⟩)
    · exact ⟨f, hf, rfl⟩
    · exact ⟨f, hf, rfl⟩

/-- A failure that is no cancellation is what is recorded about the end of a call. -/
theorem mem_roots_iff
    (h : run.Ledger g p may k)
    {f : Failure} :
    f ∈ run.roots ↔ ∃ c o, (c, o) ∈ run.returned ∧ o.failure? c.unit.id = some f := by
  rw [h.roots, List.mem_filterMap]
  constructor
  · rintro ⟨⟨c, o⟩, hmem, hf⟩
    exact ⟨c, o, hmem, hf⟩
  · rintro ⟨c, o, hmem, hf⟩
    exact ⟨(c, o), hmem, hf⟩

theorem mem_succeeded_iff
    (h : run.Ledger g p may k)
    {handle : Handle} :
    handle ∈ run.succeeded ↔ ∃ c, (c, .built handle) ∈ run.returned := by
  rw [h.succeeded, List.mem_filterMap]
  constructor
  · rintro ⟨⟨c, o⟩, hc, ho⟩
    exact ⟨c, Outcome.handle?_eq_some_iff.mp ho ▸ hc⟩
  · rintro ⟨c, hc⟩
    exact ⟨(c, .built handle), hc, rfl⟩

/-- The unit of a call that ended has a handle or a failure. -/
theorem settled_of_mem_returned
    (h : run.Ledger g p may k)
    {e : Call β × Outcome}
    (he : e ∈ run.returned) :
    run.hasHandle e.1.unit.id = true ∨ e.1.unit.id ∈ run.failed := by
  obtain ⟨c, o⟩ := e
  have hroot : ∀ reason, o.failure? c.unit.id = some ⟨c.unit.id, reason⟩ →
      c.unit.id ∈ run.failed := fun reason hf =>
    h.mem_failed_iff.mpr (Or.inr ⟨_, h.mem_roots_iff.mpr ⟨c, o, he, hf⟩, rfl⟩)
  cases o with
  | built handle => exact Or.inl (hasHandle_iff.mpr ⟨handle, (h.handles _ _).mpr ⟨c, rfl, he⟩⟩)
  | failed e => exact Or.inr (hroot _ rfl)
  | panicked message => exact Or.inr (hroot _ rfl)

/-- A unit that was begun is pending, or in flight, or has a handle or a failure. -/
theorem settled
    (h : run.Ledger g p may k)
    {id : String}
    (hid : id ∈ p.entered k) :
    id ∈ run.pending.map (·.id) ∨ id ∈ run.tasks.map (·.call.unit.id) ∨
      run.hasHandle id = true ∨ id ∈ run.failed := by
  rcases List.mem_append.mp (h.placed.mem_iff.mpr hid) with hid | hcancelled
  · rcases List.mem_append.mp hid with hpending | hcalled
    · exact Or.inl hpending
    · obtain ⟨c, hc, rfl⟩ := List.mem_map.mp hcalled
      rcases List.mem_append.mp (h.called.mem_iff.mp hc) with hflight | hended
      · obtain ⟨t, ht, rfl⟩ := List.mem_map.mp hflight
        exact Or.inr (Or.inl (List.mem_map.mpr ⟨t, ht, rfl⟩))
      · obtain ⟨e, he, rfl⟩ := List.mem_map.mp hended
        exact Or.inr (Or.inr (h.settled_of_mem_returned he))
  · exact Or.inr (Or.inr (Or.inr (h.mem_failed_iff.mpr (Or.inl hcancelled))))

/-- No unit has both a handle and a failure. -/
theorem disjoint
    (h : run.Ledger g p may k)
    (hnodup : (p.entered k).Nodup)
    {id : String}
    (hhandle : run.hasHandle id = true) :
    id ∉ run.failed := by
  intro hfailed
  obtain ⟨handle, hfound⟩ := hasHandle_iff.mp hhandle
  obtain ⟨c, rfl, hc⟩ := (h.handles id handle).mp hfound
  rcases h.mem_failed_iff.mp hfailed with hcancelled | ⟨f, hf, hunit⟩
  · -- a unit is not both called and cancelled
    have hcalled : c.unit.id ∈ run.calls.map (·.unit.id) :=
      List.mem_map_of_mem (h.mem_calls_of_mem_returned hc)
    have hapart := (List.nodup_append.mp (h.placed.nodup_iff.mpr hnodup)).2.2
    exact hapart _ (List.mem_append_right _ hcalled) _ hcancelled rfl
  · obtain ⟨c', o, hc', ho⟩ := h.mem_roots_iff.mp hf
    have heq := h.returned_inj hnodup hc hc' (hunit.symm.trans (Outcome.unit_of_failure? ho))
    cases heq
    cases ho

end Ledger
end Run

namespace Executor

variable {e : Executor β σ} {g : Graph} {p : Plan} {w : σ} {may : Call β → Outcome → Prop}

theorem Reachable.ledger
    (hserves : e.Serves g p may)
    {k : Nat}
    {s : Run β × σ}
    (h : e.Reachable g p w k s) :
    s.1.Ledger g p may k := by
  refine h.invariant hserves Run.Ledger.start ?_ ?_
  · intro k s part _ hpending htasks hnext hledger
    exact hledger.enter hserves.accepted hpending htasks hnext
  · intro k s run' hreach hmove hledger
    exact hledger.move (hreach.sound hserves) (Plan.entered_nodup hserves.accepted k) hmove

/-- The books are in order after any further move, too. -/
theorem Reachable.ledger_move
    (hserves : e.Serves g p may)
    {k : Nat}
    {s : Run β × σ}
    (h : e.Reachable g p w k s)
    {run' : Run β}
    (hmove : s.1.Move e.registry e.limit may run') :
    run'.Ledger g p may k :=
  (h.ledger hserves).move (h.sound hserves) (Plan.entered_nodup hserves.accepted k) hmove

end Executor
end Provision
