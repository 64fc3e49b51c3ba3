import Mathlib.Data.List.Nodup
import Provision.Proofs.Graph.Acceptance

/-!
# Placing units one after the other

The loop that finds the build order counts, for every unit that is not placed, the dependencies
that are not placed.  The units for which the count is zero are kept in the order in which they are
declared, so the first of them is the first declared unit whose dependencies are all placed.

**Invariant.**  `Placing` says what holds of the ready and the waiting units in every round:
together they are the units that are not placed, each with its index and its exact count; only the
ready ones have the count zero, and they are sorted.

**Result.**
* `buildOrder_earliestFirst`: at every place the build order takes the first declared unit whose
  dependencies are all placed, and it ends only when there is no such unit.
-/

namespace Provision

/-- Whether a unit is not placed and all its dependencies are. -/
def canPlace (placed : List String) (u : Resource) : Bool :=
  !placed.contains u.id && u.dependsOn.all placed.contains

theorem canPlace_iff
    {placed : List String}
    {u : Resource} :
    canPlace placed u = true ↔ u.id ∉ placed ∧ ∀ d ∈ u.dependsOn, d ∈ placed := by
  simp [canPlace]

/-- The first declared unit that can be placed. -/
def nextUnit? (units : List Resource) (placed : List String) : Option Resource :=
  units.find? (canPlace placed)

/-- At every place of the order stands the first declared unit that can be placed then, and no unit
can be placed after the last one. -/
def EarliestFirst (units : List Resource) : List String → List Resource → Prop
  | placed, [] => nextUnit? units placed = none
  | placed, u :: rest =>
    nextUnit? units placed = some u ∧ EarliestFirst units (placed ++ [u.id]) rest

/-- The number of dependencies of a unit that are not placed. -/
def unplacedCount (placed : List String) (u : Resource) : Nat :=
  (u.dependsOn.filter fun d => !placed.contains d).length

theorem unplacedCount_eq_zero_iff
    {placed : List String}
    {u : Resource} :
    unplacedCount placed u = 0 ↔ ∀ d ∈ u.dependsOn, d ∈ placed := by
  simp [unplacedCount]

/-- A count never goes below zero: what is placed next was counted. -/
theorem unplacedCount_append
    {placed : List String}
    {id : String}
    (hid : id ∉ placed)
    (u : Resource) :
    unplacedCount placed u = unplacedCount (placed ++ [id]) u + u.dependsOn.count id := by
  unfold unplacedCount
  simp only [List.contains_eq_mem, List.mem_append, List.mem_singleton, Bool.decide_or,
    Bool.not_or]
  induction u.dependsOn with
  | nil => rfl
  | cons d rest ih =>
      by_cases hd : d = id
      · subst hd
        simp only [hid, List.filter_cons, List.count_cons_self, decide_true, decide_false,
          Bool.not_true, Bool.not_false, Bool.and_false, if_true, List.length_cons, ih]
        simp only [Bool.false_eq_true, if_false]
        omega
      · by_cases hp : d ∈ placed
        · simp [hp, hd, ih]
        · simp only [hp, hd, List.filter_cons, List.count_cons_of_ne hd, decide_false,
            Bool.not_false, Bool.and_true, if_true, List.length_cons, ih]
          omega

/-- What holds in every round of the loop that places units. -/
structure Placing (units : List Resource) (placed : List String) (ready waiting : List Waiting) :
    Prop where
  /-- Every unit stands at its index. -/
  index : ∀ w ∈ ready ++ waiting, units[w.index]? = some w.unit
  unplaced : ∀ w ∈ ready ++ waiting, w.unit.id ∉ placed
  missing : ∀ w ∈ ready ++ waiting, w.missing = unplacedCount placed w.unit
  /-- No unit is lost. -/
  complete : ∀ i u, units[i]? = some u → u.id ∉ placed → ∃ w ∈ ready ++ waiting, w.index = i
  distinct : ((ready ++ waiting).map fun w => w.unit.id).Nodup
  ready_missing : ∀ w ∈ ready, w.missing = 0
  waiting_missing : ∀ w ∈ waiting, w.missing ≠ 0
  sorted : ready.Pairwise fun v w => v.index ≤ w.index

namespace Placing

variable {units : List Resource} {placed : List String} {ready waiting : List Waiting}

/-- At the beginning all units wait for all their dependencies. -/
theorem ofUnits
    (hnodup : (units.map (·.id)).Nodup) :
    Placing units []
      ((Waiting.ofUnits units).filter fun w => w.isReady)
      ((Waiting.ofUnits units).filter fun w => !w.isReady) := by
  have hperm := List.filter_append_perm (fun w : Waiting => w.isReady) (Waiting.ofUnits units)
  have hmem : ∀ w, w ∈ Waiting.ofUnits units ↔
      units[w.index]? = some w.unit ∧ w.missing = w.unit.dependsOn.length := by
    intro w
    rw [Waiting.ofUnits, List.mem_iff_getElem?]
    constructor
    · rintro ⟨i, hi⟩
      rw [List.getElem?_mapIdx] at hi
      obtain ⟨u, hu, rfl⟩ := Option.map_eq_some_iff.mp hi
      exact ⟨hu, rfl⟩
    · rintro ⟨hunit, hmissing⟩
      refine ⟨w.index, ?_⟩
      rw [List.getElem?_mapIdx, hunit, Option.map_some, ← hmissing]
  refine ⟨?_, ?_, ?_, ?_, ?_, ?_, ?_, ?_⟩
  · intro w hw
    exact ((hmem w).mp (hperm.mem_iff.mp hw)).1
  · intro w _
    exact List.not_mem_nil
  · intro w hw
    rw [((hmem w).mp (hperm.mem_iff.mp hw)).2]
    simp [unplacedCount]
  · intro i u hu _
    exact ⟨⟨i, u, u.dependsOn.length⟩, hperm.mem_iff.mpr ((hmem _).mpr ⟨hu, rfl⟩), rfl⟩
  · refine (hperm.map _).nodup_iff.mpr ?_
    have hids : (Waiting.ofUnits units).map (fun w => w.unit.id) = units.map (·.id) := by
      refine List.ext_getElem? fun i => ?_
      simp [Waiting.ofUnits, Function.comp_def]
    rw [hids]
    exact hnodup
  · intro w hw
    simpa [Waiting.isReady] using (List.mem_filter.mp hw).2
  · intro w hw
    simpa [Waiting.isReady] using (List.mem_filter.mp hw).2
  · have hsorted : (Waiting.ofUnits units).Pairwise fun v w => v.index ≤ w.index := by
      rw [Waiting.ofUnits, List.pairwise_iff_getElem]
      intro i j _ _ hij
      simpa using Nat.le_of_lt hij
    exact hsorted.filter _

/-- The first ready unit is the first declared one that can be placed. -/
theorem nextUnit?_eq_head
    {next : Waiting}
    (h : Placing units placed (next :: ready) waiting) :
    nextUnit? units placed = some next.unit := by
  obtain ⟨hlt, hunit⟩ := List.getElem?_eq_some_iff.mp (h.index next List.mem_cons_self)
  refine List.find?_eq_some_iff_getElem.mpr ⟨?_, next.index, hlt, hunit, ?_⟩
  · have hzero := h.missing next List.mem_cons_self
    rw [h.ready_missing next List.mem_cons_self] at hzero
    exact canPlace_iff.mpr
      ⟨h.unplaced next List.mem_cons_self, unplacedCount_eq_zero_iff.mp hzero.symm⟩
  · intro j hj
    have hget : units[j]? = some units[j] := List.getElem?_eq_getElem (Nat.lt_trans hj hlt)
    rw [Bool.not_eq_true']
    by_contra hcan
    have hready := canPlace_iff.mp (Bool.of_not_eq_false hcan)
    -- a unit declared earlier that could be placed would be ready, and stand in front
    obtain ⟨w, hw, hindex⟩ := h.complete j units[j] hget hready.1
    have hunit' : w.unit = units[j] := by
      have := h.index w hw
      rw [hindex, hget] at this
      exact (Option.some.inj this).symm
    have hzero : w.missing = 0 := by
      rw [h.missing w hw, hunit']
      exact unplacedCount_eq_zero_iff.mpr hready.2
    rcases List.mem_append.mp hw with hw | hw
    · rcases List.mem_cons.mp hw with rfl | hw
      · omega
      · have := (List.pairwise_cons.mp h.sorted).1 w hw
        omega
    · exact h.waiting_missing w hw hzero

/-- When no unit is ready, none can be placed. -/
theorem nextUnit?_eq_none
    (h : Placing units placed [] waiting) :
    nextUnit? units placed = none := by
  refine List.find?_eq_none.mpr ?_
  intro u hu hcan
  have hready := canPlace_iff.mp hcan
  obtain ⟨i, hi⟩ := List.mem_iff_getElem?.mp hu
  obtain ⟨w, hw, hindex⟩ := h.complete i u hi hready.1
  have hunit : w.unit = u := by
    have := h.index w hw
    rw [hindex, hi] at this
    exact (Option.some.inj this).symm
  refine h.waiting_missing w hw ?_
  rw [h.missing w hw, hunit]
  exact unplacedCount_eq_zero_iff.mpr hready.2

/-- The units that are left after the first ready one is placed. -/
theorem mem_rest
    {next : Waiting}
    (h : Placing units placed (next :: ready) waiting)
    {w : Waiting}
    (hw : w ∈ ready ++ Waiting.releaseAll next.unit.id waiting) :
    ∃ v ∈ ready ++ waiting, v.index = w.index ∧ v.unit = w.unit ∧ v.unit.id ≠ next.unit.id ∧
      w.missing = unplacedCount (placed ++ [next.unit.id]) w.unit := by
  have hnew := h.unplaced next List.mem_cons_self
  have hne : ∀ v ∈ ready ++ waiting, v.unit.id ≠ next.unit.id := by
    intro v hv heq
    refine (List.nodup_cons.mp h.distinct).1 ?_
    exact List.mem_map.mpr ⟨v, hv, heq⟩
  rcases List.mem_append.mp hw with hw | hw
  · refine ⟨w, List.mem_append_left _ hw, rfl, rfl, hne w (List.mem_append_left _ hw), ?_⟩
    have hcount := h.missing w (List.mem_cons_of_mem _ (List.mem_append_left _ hw))
    have hzero := h.ready_missing w (List.mem_cons_of_mem _ hw)
    have := unplacedCount_append hnew w.unit
    omega
  · obtain ⟨v, hv, rfl⟩ := List.mem_map.mp hw
    refine ⟨v, List.mem_append_right _ hv, rfl, rfl, hne v (List.mem_append_right _ hv), ?_⟩
    have hcount := h.missing v (List.mem_cons_of_mem _ (List.mem_append_right _ hv))
    have := unplacedCount_append hnew v.unit
    simp only [Waiting.release]
    omega

/-- Placing the first ready unit keeps the invariant. -/
theorem place
    {next : Waiting}
    (h : Placing units placed (next :: ready) waiting) :
    Placing units (placed ++ [next.unit.id])
      (Waiting.enqueue ready
        ((Waiting.releaseAll next.unit.id waiting).filter fun w => w.isReady))
      ((Waiting.releaseAll next.unit.id waiting).filter fun w => !w.isReady) := by
  have hperm := Waiting.enqueue_filter_perm ready (Waiting.releaseAll next.unit.id waiting)
  refine ⟨?_, ?_, ?_, ?_, ?_, ?_, ?_, ?_⟩
  · intro w hw
    obtain ⟨v, hv, hindex, hunit, _⟩ := h.mem_rest (hperm.mem_iff.mp hw)
    rw [← hindex, ← hunit]
    exact h.index v (List.mem_cons_of_mem _ hv)
  · intro w hw hmem
    obtain ⟨v, hv, _, hunit, hne, _⟩ := h.mem_rest (hperm.mem_iff.mp hw)
    rw [← hunit] at hmem
    rcases List.mem_append.mp hmem with hmem | hmem
    · exact h.unplaced v (List.mem_cons_of_mem _ hv) hmem
    · exact hne (List.mem_singleton.mp hmem)
  · intro w hw
    obtain ⟨_, _, _, _, _, hmissing⟩ := h.mem_rest (hperm.mem_iff.mp hw)
    exact hmissing
  · intro i u hu hid
    rw [List.mem_append, not_or] at hid
    obtain ⟨w, hw, hindex⟩ := h.complete i u hu hid.1
    have hunit : w.unit = u := by
      have := h.index w hw
      rw [hindex, hu] at this
      exact (Option.some.inj this).symm
    rcases List.mem_append.mp hw with hw | hw
    · rcases List.mem_cons.mp hw with rfl | hw
      · exact absurd (List.mem_singleton.mpr (by rw [hunit])) hid.2
      · exact ⟨w, hperm.mem_iff.mpr (List.mem_append_left _ hw), hindex⟩
    · refine ⟨w.release next.unit.id, hperm.mem_iff.mpr (List.mem_append_right _ ?_), hindex⟩
      exact List.mem_map_of_mem hw
  · refine (hperm.map _).nodup_iff.mpr ?_
    have hdistinct := (List.nodup_cons.mp h.distinct).2
    simpa [Waiting.releaseAll, Waiting.release, Function.comp_def] using hdistinct
  · intro w hw
    rcases List.mem_append.mp ((Waiting.enqueue_perm _ _).mem_iff.mp hw) with hw | hw
    · exact h.ready_missing w (List.mem_cons_of_mem _ hw)
    · simpa [Waiting.isReady] using (List.mem_filter.mp hw).2
  · intro w hw
    simpa [Waiting.isReady] using (List.mem_filter.mp hw).2
  · exact Sorted.insertAllByRank_pairwise _ _ (List.pairwise_cons.mp h.sorted).2

end Placing

theorem placeFrom_earliestFirst
    {units : List Resource}
    {placed : List String}
    {ready waiting : List Waiting}
    (h : Placing units placed ready waiting) :
    EarliestFirst units placed (placeFrom ready waiting) := by
  fun_induction placeFrom ready waiting generalizing placed with
  | case1 waiting => exact h.nextUnit?_eq_none
  | case2 waiting next ready released =>
      rename_i ih
      exact ⟨h.nextUnit?_eq_head, ih h.place⟩

/-- The build order takes the first declared unit that can be placed, until there is none. -/
theorem buildOrder_earliestFirst
    {units : List Resource}
    (hnodup : (units.map (·.id)).Nodup) :
    EarliestFirst units [] (buildOrder units) :=
  placeFrom_earliestFirst (Placing.ofUnits hnodup)

end Provision
