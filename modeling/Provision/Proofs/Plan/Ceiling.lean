import Mathlib.Order.Bounds.Defs
import Provision.Proofs.Plan.Cut

/-!
# The ceiling of a plan

The loop closes a partition only when it has to.  To compare it with other ways of cutting the build
order, two runs over the same remaining units are looked at, of which one has more units in its open
segment.

**Exchange.**  The run with more units in its open segment has to close it earlier or at the same
unit.  From that unit on it has one segment more, but the fewer units in its open segment, so the
roles are exchanged.  Hence it ends with as many segments as the other run, or with one more.  If a
competing way of cutting closes a segment where the loop does not, it pays a segment for it, and the
loop is never more than that one segment behind.

**Results.**
* `segments_flatten_length_le`: no division of the units has fewer segments than the loop makes.
* `Plan.cut_isFewest`: the plan has the least number of partitions, and a higher ceiling never
  brings more of them.
* `Plan.cut_eq_single`: from the total weight on the plan is the one with one partition.
-/

namespace Provision

/-- The segments are the build order of a graph one after the other, and each of them stays within
the ceiling or holds a single unit. -/
structure Graph.IsDivision (g : Graph) (ceiling : Nat) (parts : List (List Resource)) : Prop where
  order : parts.flatten = g.order
  segments : ∀ units ∈ parts, IsSegment ceiling units

theorem IsSegment.mono
    {ceiling higher : Nat}
    {units : List Resource}
    (h : IsSegment ceiling units)
    (hle : ceiling ≤ higher) :
    IsSegment higher units :=
  ⟨h.1, fun hheavy => h.2 (Nat.lt_of_le_of_lt hle hheavy)⟩

theorem length_filled_le
    (units : List Resource) :
    (filled units).length ≤ 1 := by
  cases units <;> simp [filled]

theorem length_filled_of_ne_nil
    {units : List Resource}
    (h : units ≠ []) :
    (filled units).length = 1 := by
  cases units with
  | nil => exact absurd rfl h
  | cons u rest => rfl

theorem length_filled_le_append
    (front current : List Resource) :
    (filled current).length ≤ (filled (front ++ current)).length := by
  cases current with
  | nil => exact Nat.zero_le _
  | cons u rest =>
      have hsome : front ++ u :: rest ≠ [] :=
        List.append_ne_nil_of_right_ne_nil front (List.cons_ne_nil u rest)
      rw [length_filled_of_ne_nil hsome]
      exact length_filled_le _

section Exchange

variable {ceiling : Nat} {current : List Resource} {u : Resource} {rest : List Resource}

theorem length_segments_of_heavy
    (h : ceiling < u.weight) :
    (segments ceiling current (u :: rest)).length =
      (filled current).length + 1 + (segments ceiling [] rest).length := by
  rw [segments, if_pos h, List.length_append, List.length_cons]
  omega

/-- A unit that does not fit closes the open segment. -/
theorem length_segments_of_full
    (hlight : u.weight ≤ ceiling)
    (hfull : ceiling < totalWeight current + u.weight) :
    (segments ceiling current (u :: rest)).length = 1 + (segments ceiling [u] rest).length := by
  have hopen : current ≠ [] := by
    rintro rfl
    rw [totalWeight_nil] at hfull
    omega
  rw [segments, if_neg (Nat.not_lt.mpr hlight), if_pos hfull, List.length_append,
    length_filled_of_ne_nil hopen]

theorem segments_of_fits
    (h : totalWeight current + u.weight ≤ ceiling) :
    segments ceiling current (u :: rest) = segments ceiling (current ++ [u]) rest := by
  rw [segments, if_neg (by omega), if_neg (Nat.not_lt.mpr h)]

/-- More units in the open segment cost no segment or one. -/
theorem length_segments_exchange
    (ceiling : Nat)
    (front current units : List Resource) :
    (segments ceiling current units).length ≤ (segments ceiling (front ++ current) units).length ∧
      (segments ceiling (front ++ current) units).length ≤
        (segments ceiling current units).length + 1 := by
  induction units generalizing front current with
  | nil =>
      refine ⟨length_filled_le_append front current, ?_⟩
      exact Nat.le_trans (length_filled_le _) (Nat.le_add_left 1 _)
  | cons u rest ih =>
      have hweight := totalWeight_append front current
      by_cases hheavy : ceiling < u.weight
      · have hfront := length_filled_le_append front current
        have hone := length_filled_le (front ++ current)
        rw [length_segments_of_heavy hheavy, length_segments_of_heavy hheavy]
        omega
      · have hlight := Nat.le_of_not_lt hheavy
        by_cases hfull : ceiling < totalWeight current + u.weight
        · -- both runs close their segments in front of the unit
          have hlarger : ceiling < totalWeight (front ++ current) + u.weight := by omega
          rw [length_segments_of_full hlight hfull, length_segments_of_full hlight hlarger]
          omega
        · rw [segments_of_fits (Nat.le_of_not_lt hfull)]
          by_cases hlarger : ceiling < totalWeight (front ++ current) + u.weight
          · -- one run closes its segment, and has fewer units in the open one from here on
            obtain ⟨hlow, hhigh⟩ := ih current [u]
            rw [length_segments_of_full hlight hlarger]
            omega
          · rw [segments_of_fits (Nat.le_of_not_lt hlarger), List.append_assoc]
            exact ih front (current ++ [u])

end Exchange

/-- Units that fit all go into the open segment. -/
theorem segments_append_of_light
    {ceiling : Nat}
    {current units : List Resource}
    (h : totalWeight (current ++ units) ≤ ceiling)
    (rest : List Resource) :
    segments ceiling current (units ++ rest) = segments ceiling (current ++ units) rest := by
  induction units generalizing current with
  | nil => rw [List.nil_append, List.append_nil]
  | cons u others ih =>
      rw [List.append_cons] at h ⊢
      have hfits : totalWeight current + u.weight ≤ ceiling := by
        rw [totalWeight_append, totalWeight_append, totalWeight_singleton] at h
        omega
      rw [List.cons_append, segments_of_fits hfits, ih h]

/-- A segment in front brings at most one segment more. -/
theorem length_segments_append_le
    {ceiling : Nat}
    {units : List Resource}
    (h : IsSegment ceiling units)
    (rest : List Resource) :
    (segments ceiling [] (units ++ rest)).length ≤ 1 + (segments ceiling [] rest).length := by
  by_cases hheavy : ceiling < totalWeight units
  · obtain ⟨u, rfl⟩ := h.2 hheavy
    rw [List.singleton_append, length_segments_of_heavy hheavy]
    exact Nat.le_of_eq (by rw [filled]; rfl)
  · have hlight : totalWeight ([] ++ units) ≤ ceiling := Nat.le_of_not_lt hheavy
    rw [segments_append_of_light hlight, List.nil_append]
    have hexchange := (length_segments_exchange ceiling units [] rest).2
    rw [List.append_nil] at hexchange
    omega

/-- No division of the units has fewer segments. -/
theorem segments_flatten_length_le
    {ceiling : Nat}
    {parts : List (List Resource)}
    (h : ∀ units ∈ parts, IsSegment ceiling units) :
    (segments ceiling [] parts.flatten).length ≤ parts.length := by
  induction parts with
  | nil => exact Nat.le_refl 0
  | cons units rest ih =>
      obtain ⟨hunits, hrest⟩ := List.forall_mem_cons.mp h
      have hstep := length_segments_append_le hunits rest.flatten
      have hothers := ih hrest
      rw [List.flatten_cons, List.length_cons]
      omega

/-- The weight of units does not depend on their order. -/
theorem totalWeight_perm
    {units others : List Resource}
    (h : units.Perm others) :
    totalWeight units = totalWeight others := by
  have hweights : LeftCommutative fun (u : Resource) n => u.weight + n :=
    ⟨fun u v n => Nat.add_left_comm u.weight v.weight n⟩
  exact h.foldr_eq 0

/-- The build order is an order of the units. -/
theorem Graph.order_perm
    (g : Graph) :
    g.order.Perm g.units := by
  have hfound := g.orderIds_perm.filterMap g.unit?
  rwa [Graph.orderIds, Plan.filterMap_unit? fun _ hu => g.order_earliestFirst.mem_units hu,
    Plan.filterMap_unit? fun _ hu => hu] at hfound

namespace Plan

variable {g : Graph} {ceiling : Nat}

theorem length_ofSegments
    (ceiling : Nat)
    (parts : List (List Resource)) :
    (ofSegments ceiling parts).partitions.length = parts.length := by
  rw [ofSegments, List.length_mapIdx]

/-- The segments that the loop makes divide the build order. -/
theorem segments_isDivision
    (g : Graph)
    (ceiling : Nat) :
    g.IsDivision ceiling (segments ceiling [] g.order) where
  order := by rw [flatten_segments, List.nil_append]
  segments := by
    have hlight : totalWeight [] ≤ ceiling := Nat.zero_le ceiling
    exact fun units hunits => isSegment_of_mem_segments hlight hunits

theorem segments_length_le
    {parts : List (List Resource)}
    (h : g.IsDivision ceiling parts) :
    (segments ceiling [] g.order).length ≤ parts.length := by
  rw [← h.order]
  exact segments_flatten_length_le h.segments

/-- The plan under a ceiling has the least number of partitions into which the build order can be
divided, and a higher ceiling never brings more of them. -/
theorem cut_isFewest
    (h : 1 ≤ ceiling)
    (g : Graph) :
    ∃ p, cut g ceiling = .ok p ∧
      IsLeast {n | ∃ parts, g.IsDivision ceiling parts ∧ parts.length = n} p.partitions.length ∧
      ∀ higher, ceiling ≤ higher →
        ∃ p', cut g higher = .ok p' ∧ p'.partitions.length ≤ p.partitions.length := by
  refine ⟨_, cut_eq_ofSegments h, ⟨?_, ?_⟩, ?_⟩
  · exact ⟨_, segments_isDivision g ceiling, (length_ofSegments ceiling _).symm⟩
  · rintro n ⟨parts, hparts, rfl⟩
    rw [length_ofSegments]
    exact segments_length_le hparts
  · intro higher hle
    refine ⟨_, cut_eq_ofSegments (Nat.le_trans h hle), ?_⟩
    have hdivision := segments_isDivision g ceiling
    have hstill : g.IsDivision higher (segments ceiling [] g.order) :=
      ⟨hdivision.order, fun units hunits => (hdivision.segments units hunits).mono hle⟩
    rw [length_ofSegments, length_ofSegments]
    exact segments_length_le hstill

theorem uneven_cut_isFewest :
    1 ≤ 4 ∧ 4 ≤ 8 ∧ ∃ p p', cut .uneven 4 = .ok p ∧ cut .uneven 8 = .ok p' ∧
      IsLeast {n | ∃ parts, Graph.uneven.IsDivision 4 parts ∧ parts.length = n}
        p.partitions.length ∧
      p'.partitions.length ≤ p.partitions.length ∧
      p.partitions.length = 4 ∧ p'.partitions.length = 3 := by
  have hpositive : 1 ≤ 4 := by decide
  have hhigher : 4 ≤ 8 := by decide
  obtain ⟨p, hcut, hleast, hmono⟩ := cut_isFewest hpositive .uneven
  obtain ⟨p', hcut', hle⟩ := hmono 8 hhigher
  have hlow : (cut .uneven 4).map (·.partitions.length) = .ok 4 := by cbv
  have hhigh : (cut .uneven 8).map (·.partitions.length) = .ok 3 := by cbv
  rw [hcut] at hlow
  rw [hcut'] at hhigh
  exact ⟨hpositive, hhigher, p, p', hcut, hcut', hleast, hle, Except.ok.inj hlow,
    Except.ok.inj hhigh⟩

/-- All units fit into one segment. -/
theorem segments_of_total_le
    {units : List Resource}
    (h : totalWeight units ≤ ceiling) :
    segments ceiling [] units = filled units := by
  have hall : segments ceiling [] (units ++ []) = segments ceiling units [] :=
    segments_append_of_light h []
  rwa [List.append_nil] at hall

theorem foldl_push_ofSegment
    {index : Nat}
    {front units : List Resource}
    (h : totalWeight (front ++ units) ≤ ceiling) :
    units.foldl Partition.push (.ofSegment ceiling index front) =
      .ofSegment ceiling index (front ++ units) := by
  induction units generalizing front with
  | nil => rw [List.append_nil, List.foldl_nil]
  | cons u rest ih =>
      rw [List.append_cons] at h ⊢
      have hfits : totalWeight front + u.weight ≤ ceiling := by
        rw [totalWeight_append, totalWeight_append, totalWeight_singleton] at h
        omega
      rw [List.foldl_cons, Partition.push_ofSegment hfits, ih h]

theorem foldl_push_opened
    {units : List Resource}
    (h : totalWeight units ≤ ceiling) :
    units.foldl Partition.push (.opened 0) = .ofSegment ceiling 0 units := by
  rw [Partition.opened_eq_ofSegment ceiling]
  exact foldl_push_ofSegment h

/-- The plan with one partition is the plan of one segment, unless there are no units. -/
theorem single_eq_ofSegments
    (h : totalWeight g.order ≤ ceiling) :
    { single g with ceiling := ceiling } = ofSegments ceiling (filled g.order) := by
  rw [single, foldl_push_opened h, ofSegments]
  cases horder : g.order with
  | nil => rfl
  | cons u rest =>
      rw [horder] at h
      simp [filled, Partition.ofSegment, notices, segmentNotices_of_light h]

/-- From the total weight of the units on the ceiling does not count: the plan is the one with one
partition, without a notice. -/
theorem cut_eq_single
    (g : Graph) :
    cut g (max 1 (totalWeight g.units)) = .ok (single g) ∧
      (single g).overflows = [] ∧
      ∀ ceiling, max 1 (totalWeight g.units) ≤ ceiling →
        cut g ceiling = .ok { single g with ceiling := ceiling } := by
  have hcut : ∀ ceiling, max 1 (totalWeight g.units) ≤ ceiling →
      cut g ceiling = .ok { single g with ceiling := ceiling } := by
    intro ceiling hle
    have htotal : totalWeight g.order ≤ ceiling := by
      rw [totalWeight_perm g.order_perm]
      exact Nat.le_trans (Nat.le_max_right 1 _) hle
    rw [cut_eq_ofSegments (Nat.le_trans (Nat.le_max_left 1 _) hle), segments_of_total_le htotal,
      single_eq_ofSegments htotal]
  have hceiling : (single g).ceiling = max 1 (totalWeight g.units) := by
    rw [single, foldl_push_opened (Nat.le_refl (totalWeight g.order)),
      ← totalWeight_perm g.order_perm]
    rfl
  refine ⟨?_, rfl, hcut⟩
  rw [hcut _ (Nat.le_refl _), ← hceiling]

theorem uneven_cut_eq_single :
    max 1 (totalWeight Graph.uneven.units) ≤ 20 ∧
      cut .uneven 20 = .ok { single .uneven with ceiling := 20 } := by
  have htotal : max 1 (totalWeight Graph.uneven.units) ≤ 20 := by decide
  exact ⟨htotal, (cut_eq_single .uneven).2.2 20 htotal⟩

end Plan
end Provision
