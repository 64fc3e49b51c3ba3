import Provision.Proofs.Build.Blame

/-!
# Builds that do not idle and do not leave early

**Waiting.**  While a partition is run, all pending units are looked at before the end of a call is
awaited.  A unit that was passed over had a dependency without a handle, or there was no room for a
call.  Once there is no room it comes back only with the end of a call, after which all pending
units are looked at again.  So a run waits only if it is full, or if no pending unit is ready.

**Leaving.**  The run of a partition is left when no call is in flight.  There is room then, so every
unit that is still pending has a dependency without a handle.  That dependency failed, or is pending
itself; following such dependencies leads to a unit that failed, since there is no cycle.

**Results.**
* `Executor.Reachable.waits_iff`, `Executor.Reachable.leaves_iff`: when a run waits or leaves.
* `Executor.Reachable.isDiligent`: a run waits and leaves only when nothing else can be done.
-/

namespace Provision

open Relation

variable {β σ : Type}

namespace Run

variable
  {g : Graph}
  {p : Plan}
  {registry : Registry β}
  {limit : Option Nat}
  {may : Call β → Outcome → Prop}
  {k : Nat}
  {run run' : Run β}

/-- Ends are recorded by no other move than the end of a call. -/
theorem Move.swept_of_returned
    (hmove : run.Move registry limit may run')
    (hlater : run.returned.length < run'.returned.length) :
    run.pending.length ≤ run.cursor ∧ run.tasks ≠ [] := by
  cases hmove with
  | join i _ swept =>
      exact ⟨swept, List.length_pos_iff.mp (Nat.lt_of_le_of_lt (Nat.zero_le i) i.isLt)⟩
  | cancel => exact absurd hlater (Nat.lt_irrefl _)
  | launch => exact absurd hlater (Nat.lt_irrefl _)
  | pass => exact absurd hlater (Nat.lt_irrefl _)
  | abandon => exact absurd hlater (Nat.lt_irrefl _)

/-- A run that is full has as many calls in flight as the limit allows. -/
theorem Within.length_eq_of_full
    (h : run.Within limit)
    (hfull : run.hasCapacity limit = false) :
    ∃ n ∈ limit, run.tasks.length = n := by
  cases limit with
  | none => cases hfull
  | some n =>
      simp only [hasCapacity, decide_eq_false_iff_not, Nat.not_lt] at hfull
      exact ⟨n, rfl, Nat.le_antisymm (h n rfl) hfull⟩

/-- When all pending units were looked at, the run is full or none of them is ready. -/
theorem Held.full_or_missing
    (h : run.Held limit)
    (swept : run.pending.length ≤ run.cursor) :
    run.hasCapacity limit = false ∨
      ∀ u ∈ run.pending, ∃ d ∈ u.dependsOn, run.hasHandle d = false := by
  rw [Held, List.take_of_length_le swept] at h
  cases hroom : run.hasCapacity limit with
  | false => exact Or.inl rfl
  | true =>
      refine Or.inr fun u hu => (h u hu).resolve_right fun hfull => ?_
      rw [hroom] at hfull
      cases hfull

/-- A run in which all pending units were looked at while no call is in flight. -/
structure Stalled
    (g : Graph)
    (p : Plan)
    (may : Call β → Outcome → Prop)
    (k : Nat)
    (run : Run β) : Prop where
  accepted : p.check g = .ok ()
  sound : run.Sound g
  ledger : run.Ledger g p may k
  patient : run.Patient
  excused : run.Excused g
  swept : run.pending.length ≤ run.cursor
  idle : run.tasks = []

namespace Stalled

/-- A unit that is left or was cancelled has a dependency that failed or is left too. -/
theorem exists_lost
    (h : run.Stalled g p may k)
    {u : Resource}
    (hu : u ∈ g.units)
    (hlost : u.id ∈ run.cancelled ∨ u.id ∈ run.pending.map (·.id)) :
    ∃ d ∈ u.dependsOn, d ∈ run.failed ∨ d ∈ run.pending.map (·.id) := by
  rcases hlost with hcancelled | hleft
  · obtain ⟨f, hf, hunit⟩ := List.mem_map.mp hcancelled
    obtain ⟨hf, hkind⟩ := List.mem_filter.mp hf
    obtain ⟨d, hreason⟩ := Failure.isCancelled_iff.mp hkind
    obtain ⟨v, hv, hvid, hd, hcause⟩ := h.excused f hf d hreason
    obtain rfl := g.eq_of_id_eq hv hu (hvid.trans hunit)
    exact ⟨d, hd, hcause.imp_right fun hleft => hleft.2.2⟩
  · obtain ⟨v, hv, hvid⟩ := List.mem_map.mp hleft
    obtain rfl := g.eq_of_id_eq (h.sound.known v hv) hu hvid
    obtain ⟨d, hd, _, hmissing⟩ := h.patient.missing h.swept h.idle hv
    exact ⟨d, hd, h.ledger.left_of_missing h.sound h.accepted h.idle hv hd hmissing⟩

/-- The dependencies lead from a unit that is left to one whose builder failed. -/
theorem exists_root
    (h : run.Stalled g p may k)
    {u : Resource}
    (hu : u ∈ run.pending) :
    ∃ f ∈ run.roots, DependsVia g.units u.id f.unit := by
  have hlost : ∀ v ∈ g.units, v.id ∈ run.failed ∨ v.id ∈ run.pending.map (·.id) →
      ∃ f ∈ run.roots, f.unit = v.id ∨ DependsVia g.units v.id f.unit := by
    refine g.dependency_induction (P := fun id => id ∈ run.failed ∨ id ∈ run.pending.map (·.id) →
      ∃ f ∈ run.roots, f.unit = id ∨ DependsVia g.units id f.unit) ?_
    intro v hv ih hlost
    rw [h.ledger.mem_failed_iff, or_right_comm] at hlost
    rcases hlost with hlost | ⟨f, hf, hunit⟩
    · obtain ⟨d, hd, hnext⟩ := h.exists_lost hv hlost
      obtain ⟨f, hf, hchain⟩ := ih d hd hnext
      have hstep : DependsOn g.units v.id d := ⟨v, hv, rfl, hd⟩
      rcases hchain with rfl | hchain
      · exact ⟨f, hf, Or.inr (TransGen.single hstep)⟩
      · exact ⟨f, hf, Or.inr (TransGen.head hstep hchain)⟩
    · exact ⟨f, hf, Or.inl hunit⟩
  have hunits := h.sound.known u hu
  obtain ⟨d, hd, hnext⟩ := h.exists_lost hunits (Or.inr (List.mem_map_of_mem hu))
  obtain ⟨v, hv, rfl⟩ := List.mem_map.mp (g.known hunits hd)
  have hstep : DependsOn g.units u.id v.id := ⟨u, hunits, rfl, hd⟩
  obtain ⟨f, hf, hunit | hchain⟩ := hlost v hv hnext
  · exact ⟨f, hf, TransGen.single (hunit ▸ hstep)⟩
  · exact ⟨f, hf, TransGen.head hstep hchain⟩

end Stalled
end Run

namespace Executor

/-- The run of a partition waits: its next step ends a call. -/
def Waits (e : Executor β σ) (s : Run β × σ) : Prop :=
  ∃ i outcome w, e.step s = some (s.1.join i outcome, w)

/-- The run of a partition is left: all pending units were looked at, and no call is awaited. -/
def Leaves (e : Executor β σ) (s : Run β × σ) : Prop :=
  s.1.pending.length ≤ s.1.cursor ∧ ¬ e.Waits s

/-- A run waits and leaves only when nothing else can be done. -/
structure IsDiligent
    (e : Executor β σ)
    (limit : Option Nat)
    (g : Graph)
    (s : Run β × σ) : Prop where
  /-- A run waits only if as many calls are in flight as the limit allows, or no pending unit has
  the handles of all its dependencies. -/
  busy : e.Waits s → (∃ n ∈ limit, s.1.tasks.length = max 1 n) ∨
    ∀ u ∈ s.1.pending, ∃ d ∈ u.dependsOn, s.1.hasHandle d = false
  /-- When a run leaves, every call has ended. -/
  idle : e.Leaves s → s.1.tasks = [] ∧ s.1.inFlight = [] ∧
    s.1.calls.Perm (s.1.returned.map (·.1))
  /-- When a run leaves, the units that are left are downstream of units whose builders failed. -/
  excused : e.Leaves s → ∀ u ∈ s.1.pending,
    ∃ f ∈ s.1.roots, f.unit ∈ s.1.failed ∧ DependsVia g.units u.id f.unit

variable
  {e : Executor β σ}
  {g : Graph}
  {p : Plan}
  {w : σ}
  {may : Call β → Outcome → Prop}
  {k : Nat}
  {s : Run β × σ}

namespace Reachable

/-- A run waits when all pending units were looked at and a call is in flight. -/
theorem waits_iff
    (hserves : e.Serves g p may)
    (h : e.Reachable g p w k s) :
    e.Waits s ↔ s.1.pending.length ≤ s.1.cursor ∧ s.1.tasks ≠ [] := by
  have hsound := h.sound hserves
  constructor
  · rintro ⟨i, outcome, w', hstep⟩
    have hmove := step_move hserves hsound hstep
    refine hmove.swept_of_returned ?_
    rw [hsound.join_eq]
    simp [Run.ended]
  · rintro ⟨hswept, hbusy⟩
    obtain ⟨run, w'⟩ := s
    have hlooked : run.pending[run.cursor]? = none := List.getElem?_eq_none hswept
    refine ⟨(e.runner.next w' run.tasks hbusy).1, (e.runner.next w' run.tasks hbusy).2.1,
      (e.runner.next w' run.tasks hbusy).2.2, ?_⟩
    rw [Executor.step, hsound.going, Option.isSome_none, if_neg Bool.false_ne_true, hlooked]
    exact dif_neg hbusy

/-- A run is left when all pending units were looked at and no call is in flight. -/
theorem leaves_iff
    (hserves : e.Serves g p may)
    (h : e.Reachable g p w k s) :
    e.Leaves s ↔ s.1.pending.length ≤ s.1.cursor ∧ s.1.tasks = [] := by
  rw [Leaves, h.waits_iff hserves]
  tauto

theorem stalled
    (hserves : e.Serves g p may)
    (h : e.Reachable g p w k s)
    (hleaves : e.Leaves s) :
    s.1.Stalled g p may k := by
  obtain ⟨hswept, hidle⟩ := (h.leaves_iff hserves).mp hleaves
  exact
    { accepted := hserves.accepted, sound := h.sound hserves, ledger := h.ledger hserves
      patient := h.patient hserves, excused := h.excused hserves, swept := hswept, idle := hidle }

/-- In every state of a build, the run of a partition waits and leaves only when nothing else can be
done. -/
theorem isDiligent
    {registry : Registry β}
    {runner : Runner β σ}
    {limit : Option Nat}
    (h : (ofLimit registry runner limit).Reachable g p w k s) :
    (ofLimit registry runner limit).IsDiligent limit g s := by
  cases hvalid : (ofLimit registry runner limit).validate g p with
  | error error =>
      rw [h.eq_start hvalid]
      refine ⟨?_, fun _ => ⟨rfl, rfl, List.Perm.refl _⟩, fun _ u hu => absurd hu List.not_mem_nil⟩
      rintro ⟨i, _⟩
      exact i.elim0
  | ok =>
      have hserves := serves_of_validated hvalid
      refine ⟨?_, ?_, ?_⟩
      · intro hwaits
        obtain ⟨hswept, _⟩ := (h.waits_iff hserves).mp hwaits
        refine ((h.held hserves).full_or_missing hswept).imp_left fun hfull => ?_
        obtain ⟨m, hm, hlen⟩ := (h.within hserves).length_eq_of_full hfull
        obtain ⟨n, hn, rfl⟩ := Option.map_eq_some_iff.mp hm
        exact ⟨n, hn, hlen⟩
      · intro hleaves
        have hstalled := h.stalled hserves hleaves
        have hcalled := hstalled.ledger.called
        have htracked := hstalled.sound.tracked
        rw [hstalled.idle] at hcalled htracked
        exact ⟨hstalled.idle, htracked, hcalled⟩
      · intro hleaves u hu
        have hstalled := h.stalled hserves hleaves
        obtain ⟨f, hf, hchain⟩ := hstalled.exists_root hu
        exact ⟨f, hf, hstalled.ledger.mem_failed_iff.mpr (Or.inr ⟨f, hf, rfl⟩), hchain⟩

end Reachable

/-- The state after some steps, or the last one of the run of a partition. -/
def advance (e : Executor β σ) : Nat → Run β × σ → Run β × σ
  | 0, s => s
  | n + 1, s =>
    match e.step s with
    | some s' => e.advance n s'
    | none => s

theorem Reachable.advance
    (h : e.Reachable g p w k s)
    (n : Nat) :
    e.Reachable g p w k (e.advance n s) := by
  induction n generalizing s with
  | zero => exact h
  | succ n ih =>
      rw [Executor.advance]
      split
      · exact ih (h.step ‹_›)
      · exact h

/-- The chain in one partition, one call at a time, when its first unit breaks down: the run waits
while no other unit is ready, and is left with two units that were never ready. -/
theorem reversed_isDiligent :
    ∃ s t, (frail "network" (some 1)).Reachable .chained .reversed [] 1 s ∧
      (frail "network" (some 1)).Waits s ∧
      (frail "network" (some 1)).IsDiligent (some 1) .chained s ∧
      (frail "network" (some 1)).Reachable .chained .reversed [] 1 t ∧
      (frail "network" (some 1)).Leaves t ∧
      (frail "network" (some 1)).IsDiligent (some 1) .chained t ∧
      t.1.pending.map (·.id) = ["addons", "nodes"] := by
  have hserves : (frail "network" (some 1)).Serves .chained .reversed fun _ _ => True :=
    serves_of_validated (by cbv)
  have hstart : (frail "network" (some 1)).Reachable .chained .reversed [] 0 (.start (.ok ()), []) :=
    .start
  have hentered := hstart.enter rfl rfl rfl
  have hfour := hentered.advance 4
  have height := hentered.advance 8
  refine ⟨_, _, hfour, ?_, hfour.isDiligent, height, ?_, height.isDiligent, by cbv⟩
  · exact (hfour.waits_iff hserves).mpr ⟨by cbv, by cbv; simp⟩
  · exact (height.leaves_iff hserves).mpr ⟨by cbv, by cbv⟩

end Executor
end Provision
