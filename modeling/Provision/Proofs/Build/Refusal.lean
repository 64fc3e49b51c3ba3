import Provision.Proofs.Build.Safety
import Provision.Proofs.Plan.Single

/-!
# Builds that are refused

A build looks up builders twice: for all units before it begins, and for each unit when it is
started.  The second look-up can fail no more once the first has passed, because only units of the
graph are ever started.  So a build either ends in an error before any builder was called, or it
ends in a report, however the calls end.

**Results.**
* `Executor.reachable_run`: every build runs through reachable states to the state it ends in.
* `build_allOrNothing`: which builds are refused, and that builders are called only in builds that
  end in a report.
-/

namespace Provision

variable {β σ : Type}

/-- Whether a kind has a builder of its own or one that takes all other kinds. -/
def Registry.Offers (r : Registry β) (kind : Kind) : Prop :=
  (∃ b, (kind, b) ∈ r.own) ∨ ∃ b, r.fallback = some b

theorem Registry.isSome_get?_iff
    {r : Registry β}
    {kind : Kind} :
    (r.get? kind).isSome = true ↔ r.Offers kind := by
  rw [get?, Offers]
  cases hfind : r.own.find? (fun e => e.1 == kind) with
  | some e =>
      have hkind : e.1 = kind := by simpa using List.find?_some hfind
      have hmem := List.mem_of_find?_eq_some hfind
      exact iff_of_true rfl (Or.inl ⟨e.2, hkind ▸ hmem⟩)
  | none =>
      have hown : ¬ ∃ b, (kind, b) ∈ r.own := by
        rintro ⟨b, hb⟩
        have hnot := List.find?_eq_none.mp hfind (kind, b) hb
        simp at hnot
      rw [or_iff_right hown, Option.isSome_iff_exists]

namespace Executor

variable {e : Executor β σ} {g : Graph} {p : Plan} {w : σ}

/-- What a build may do with builders: they are called only if the build ends in a report. -/
structure IsAllOrNothing
    (e : Executor β σ)
    (g : Graph)
    (p : Plan)
    (w : σ)
    (result : Except BuildError (Report × σ)) : Prop where
  /-- The run ends in a reachable state. -/
  reached : ∃ k, e.Reachable g p w k (e.run g p w)
  /-- No state of a build that ends in an error has a call. -/
  untouched : ∀ error, result = .error error → ∀ k s, e.Reachable g p w k s → s.1.calls = []
  /-- From the first call on no error comes up, and the build ends in a report. -/
  finished : ∀ k s, e.Reachable g p w k s → s.1.calls ≠ [] →
    s.1.fault = none ∧ ∃ r w', result = .ok (r, w')

/-- A build is refused iff its plan is refused or a unit has no builder. -/
theorem validate_eq_error_iff :
    (∃ error, e.validate g p = .error error) ↔
      (∃ error, p.check g = .error error) ∨ ∃ u ∈ g.units, ¬ e.registry.Offers u.kind := by
  have hbuilders : (∀ u ∈ g.units, ∃ b, e.registry.require u = .ok b) ↔
      ∀ u ∈ g.units, e.registry.Offers u.kind := by
    simp only [Registry.exists_require_iff, Registry.isSome_get?_iff]
  have hfails : ∀ x : Except BuildError Unit, (∃ error, x = .error error) ↔ ¬ x = .ok () := by
    intro x
    cases x with
    | error error => simp
    | ok _ => simp
  rw [hfails, hfails, validate_eq_ok_iff, hbuilders, not_and_or]
  push Not
  rfl

/-- A build that is refused does not begin. -/
theorem run_of_refused
    {error : BuildError}
    (h : e.validate g p = .error error) :
    e.run g p w = (.start (.error error), w) := by
  have hstays : ∀ parts : List Partition,
      parts.foldl (e.runPartition g) (.start (.error error), w) = (.start (.error error), w) := by
    intro parts
    induction parts with
    | nil => rfl
    | cons part rest ih => exact ih
  rw [run, h, hstays]

/-- The executor serves a build that is not refused, however calls end. -/
theorem serves_of_validated
    (h : e.validate g p = .ok ()) :
    e.Serves g p fun _ _ => True where
  accepted := (validate_eq_ok_iff.mp h).1
  builders := (validate_eq_ok_iff.mp h).2
  respects := fun _ _ _ => trivial

/-- Every build runs through reachable states to the state it ends in. -/
theorem reachable_run :
    ∃ k, e.Reachable g p w k (e.run g p w) := by
  cases hvalid : e.validate g p with
  | error error =>
      refine ⟨0, ?_⟩
      rw [run_of_refused hvalid, ← hvalid]
      exact .start
  | ok => exact ⟨_, (run_reachable (serves_of_validated hvalid)).1⟩

/-- A build ends in an error iff it is refused. -/
theorem build_eq_error_iff
    {stamp : Stamp} :
    (∃ error, build e stamp g p w = .error error) ↔ ∃ error, e.validate g p = .error error := by
  cases hvalid : e.validate g p with
  | error error =>
      refine iff_of_true ⟨error, ?_⟩ ⟨error, rfl⟩
      rw [build, run_of_refused hvalid]
      rfl
  | ok =>
      obtain ⟨hreach, _⟩ := run_reachable (w := w) (serves_of_validated hvalid)
      have hgoing := (hreach.sound (serves_of_validated hvalid)).going
      refine iff_of_false ?_ nofun
      rintro ⟨error, herror⟩
      simp only [build, hgoing] at herror
      cases herror

theorem isAllOrNothing
    (e : Executor β σ)
    (stamp : Stamp)
    (g : Graph)
    (p : Plan)
    (w : σ) :
    e.IsAllOrNothing g p w (build e stamp g p w) where
  reached := reachable_run
  untouched := by
    intro error herror k s hs
    obtain ⟨error', hrefused⟩ := build_eq_error_iff.mp ⟨error, herror⟩
    rw [hs.eq_start hrefused]
    rfl
  finished := by
    intro k s hs hcalls
    cases hvalid : e.validate g p with
    | error error =>
        rw [hs.eq_start hvalid] at hcalls
        exact absurd rfl hcalls
    | ok =>
        refine ⟨(hs.sound (serves_of_validated hvalid)).going, ?_⟩
        cases hresult : build e stamp g p w with
        | ok result => exact ⟨result.1, result.2, rfl⟩
        | error error =>
            obtain ⟨error', hrefused⟩ := build_eq_error_iff.mp ⟨error, hresult⟩
            rw [hvalid] at hrefused
            cases hrefused

end Executor

/-- Which builds end in an error; and builders are called only in builds that end in a report. -/
theorem build_allOrNothing
    (e : Executor β σ)
    (stamp : Stamp)
    (w : σ) :
    (∀ (g : Graph) (p : Plan),
      ((∃ error, build e stamp g p w = .error error) ↔
        (∃ error, p.check g = .error error) ∨ ∃ u ∈ g.units, ¬ e.registry.Offers u.kind) ∧
      e.IsAllOrNothing g p w (build e stamp g p w)) ∧
    ∀ units : List Resource,
      ((∃ error, buildUnits e stamp units w = .error error) ↔
        (∃ error, Graph.ofUnits units = .error error) ∨
          ∃ u ∈ units, ¬ e.registry.Offers u.kind) ∧
      ∀ g, Graph.ofUnits units = .ok g →
        e.IsAllOrNothing g (.single g) w (buildUnits e stamp units w) := by
  have herrors : ∀ g p, (∃ error, build e stamp g p w = .error error) ↔
      (∃ error, p.check g = .error error) ∨ ∃ u ∈ g.units, ¬ e.registry.Offers u.kind :=
    fun g p => Executor.build_eq_error_iff.trans Executor.validate_eq_error_iff
  refine ⟨fun g p => ⟨herrors g p, e.isAllOrNothing stamp g p w⟩, fun units => ?_⟩
  cases haccepted : Graph.ofUnits units with
  | error error =>
      have hrefused : buildUnits e stamp units w = .error error := by
        rw [buildUnits, haccepted]
        rfl
      exact ⟨iff_of_true ⟨error, hrefused⟩ (Or.inl ⟨error, rfl⟩), nofun⟩
  | ok g =>
      obtain rfl := Graph.ofUnits_eq_ok_iff.mp haccepted
      have hbuild : buildUnits e stamp g.units w = build e stamp g (.single g) w := by
        rw [buildUnits, haccepted]
        rfl
      rw [hbuild, herrors, Plan.single_accepted]
      refine ⟨by simp, ?_⟩
      rintro g' hg'
      cases hg'
      exact e.isAllOrNothing stamp g (.single g) w

/-- The executor that has a builder for networks only. -/
def Executor.bare : Executor Unit (List Nat) :=
  .ofLimit ⟨[(.network, ())], none⟩ (.scripted fun c => breaking "" c.unit c.dependencies) none

/-- Without a builder for addons the build of the layers is refused; with builders for all units it
gives a report although one of them breaks down. -/
theorem layered_build_allOrNothing :
    (∃ error, buildUnits .bare ⟨"build", none, none⟩ Graph.layered.units [] = .error error) ∧
      ((Executor.frail "cluster" none).run .layered .layered [1]).1.calls ≠ [] ∧
      ∃ r w', build (.frail "cluster" none) ⟨"build", none, none⟩ .layered .layered [1] =
        .ok (r, w') := by
  refine ⟨?_, ?_⟩
  · refine ((build_allOrNothing .bare ⟨"build", none, none⟩ []).2 Graph.layered.units).1.mpr
      (Or.inr ⟨_, List.mem_cons_self, ?_⟩)
    simp [Registry.Offers, Executor.bare, Executor.ofLimit]
  · have hcalls : ((Executor.frail "cluster" none).run .layered .layered [1]).1.calls.map
        (·.unit.id) = ["network", "dns", "cluster"] := by cbv
    have hsome : ((Executor.frail "cluster" none).run .layered .layered [1]).1.calls ≠ [] := by
      intro hnone
      rw [hnone] at hcalls
      cases hcalls
    obtain ⟨_, hall⟩ := (build_allOrNothing (.frail "cluster" none) ⟨"build", none, none⟩ [1]).1
      .layered .layered
    obtain ⟨k, hreach⟩ := hall.reached
    exact ⟨hsome, (hall.finished k _ hreach hsome).2⟩

end Provision
