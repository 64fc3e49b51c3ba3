import Mathlib.Data.List.Forall2
import Mathlib.Data.List.Induction
import Provision.Proofs.Plan.Single

/-!
# Cutting the build order

The loop that makes a plan keeps an open partition, closes it at three places, and collects notices
on the way.  What it does to the list of units alone is said by `segments`: it cuts the list into
segments, each of which becomes a partition at its position.

**Representation.**  A plan in the making represents the segments that are closed and the units that
are in the open partition.  Every step of the loop keeps this, so the finished plan is the plan of
the segments, and all that is left is a recursion on lists.

**Results.**
* `Plan.cut_eq_ofSegments`: the loop makes the plan of the segments of the build order.
* `Plan.cut_accepted`: the plan is accepted.
* `Plan.cut_isCut`: indexes, weights, marks and notices of the plan fit the units it holds.
-/

namespace Provision

def totalWeight (units : List Resource) : Nat :=
  units.foldr (fun u n => u.weight + n) 0

theorem totalWeight_append
    (units others : List Resource) :
    totalWeight (units ++ others) = totalWeight units + totalWeight others := by
  induction units with
  | nil => simp [totalWeight]
  | cons u rest ih =>
      simp only [totalWeight, List.cons_append, List.foldr_cons] at ih ⊢
      omega

theorem totalWeight_nil :
    totalWeight [] = 0 := rfl

theorem totalWeight_singleton
    (u : Resource) :
    totalWeight [u] = u.weight := rfl

theorem weight_le_totalWeight
    {units : List Resource}
    {u : Resource}
    (hu : u ∈ units) :
    u.weight ≤ totalWeight units := by
  obtain ⟨before, after, rfl⟩ := List.append_of_mem hu
  rw [totalWeight_append]
  simp only [totalWeight, List.foldr_cons]
  omega

namespace Partition

/-- The partition that holds a segment at an index. -/
def ofSegment (ceiling index : Nat) (units : List Resource) : Partition :=
  ⟨index, "partition-" ++ toString index, units.map (·.id), totalWeight units,
    decide (ceiling < totalWeight units)⟩

theorem opened_eq_ofSegment
    (ceiling index : Nat) :
    opened index = ofSegment ceiling index [] := by
  simp [opened, ofSegment, totalWeight]

theorem push_ofSegment
    {ceiling index : Nat}
    {units : List Resource}
    {u : Resource}
    (h : totalWeight units + u.weight ≤ ceiling) :
    (ofSegment ceiling index units).push u = ofSegment ceiling index (units ++ [u]) := by
  have hlight : ¬ ceiling < totalWeight units := by omega
  have hstill : ¬ ceiling < totalWeight units + u.weight := by omega
  simp [push, ofSegment, totalWeight_append, totalWeight_singleton, hlight, hstill]

theorem pushOversized_opened
    {ceiling index : Nat}
    {u : Resource}
    (h : ceiling < u.weight) :
    (opened index).pushOversized u = ofSegment ceiling index [u] := by
  simp [pushOversized, opened, ofSegment, totalWeight_singleton, h]

end Partition

/-- A segment, unless it holds nothing. -/
def filled (units : List Resource) : List (List Resource) :=
  if units.isEmpty then [] else [units]

/-- The segments of a list of units of which the first ones are in the open segment. -/
def segments (ceiling : Nat) : List Resource → List Resource → List (List Resource)
  | current, [] => filled current
  | current, u :: rest =>
    if ceiling < u.weight then filled current ++ [u] :: segments ceiling [] rest
    else if ceiling < totalWeight current + u.weight then
      filled current ++ segments ceiling [u] rest
    else segments ceiling (current ++ [u]) rest

/-- The notices about the units of a segment that are heavier than the ceiling. -/
def segmentNotices (ceiling index : Nat) (units : List Resource) : List Overflow :=
  (units.filter fun u => ceiling < u.weight).map fun u => ⟨u.id, u.weight, ceiling, index⟩

/-- The notices about the units of all segments. -/
def notices (ceiling : Nat) (parts : List (List Resource)) : List Overflow :=
  (parts.mapIdx (segmentNotices ceiling)).flatten

theorem segmentNotices_of_light
    {ceiling index : Nat}
    {units : List Resource}
    (h : totalWeight units ≤ ceiling) :
    segmentNotices ceiling index units = [] := by
  have hnone : units.filter (fun u => ceiling < u.weight) = [] := by
    refine List.filter_eq_nil_iff.mpr fun u hu => ?_
    have := weight_le_totalWeight hu
    simp only [decide_eq_true_eq]
    omega
  simp [segmentNotices, hnone]

theorem segmentNotices_of_heavy
    {ceiling index : Nat}
    {u : Resource}
    (h : ceiling < u.weight) :
    segmentNotices ceiling index [u] = [⟨u.id, u.weight, ceiling, index⟩] := by
  simp [segmentNotices, h]

theorem notices_concat
    (ceiling : Nat)
    (parts : List (List Resource))
    (units : List Resource) :
    notices ceiling (parts ++ [units]) =
      notices ceiling parts ++ segmentNotices ceiling parts.length units := by
  simp [notices, List.mapIdx_concat]

namespace Cutting

/-- The plan in the making holds the segments as closed partitions and the current units in the open
one. -/
structure Represents (ceiling : Nat) (c : Cutting) (parts : List (List Resource))
    (current : List Resource) : Prop where
  closed : c.closed = parts.mapIdx (Partition.ofSegment ceiling)
  opened : c.current = Partition.ofSegment ceiling parts.length current
  overflows : c.overflows = notices ceiling parts
  light : totalWeight current ≤ ceiling

variable {ceiling : Nat} {c : Cutting} {parts : List (List Resource)} {current : List Resource}

theorem start_represents :
    start.Represents ceiling [] [] where
  closed := rfl
  opened := Partition.opened_eq_ofSegment ceiling 0
  overflows := rfl
  light := Nat.zero_le ceiling

/-- Closing the open partition makes its units the last segment. -/
theorem close_represents
    (hclosed : c.closed = parts.mapIdx (Partition.ofSegment ceiling))
    (hopened : c.current = Partition.ofSegment ceiling parts.length current)
    (hoverflows : c.overflows =
      notices ceiling parts ++ segmentNotices ceiling parts.length current) :
    c.close.Represents ceiling (parts ++ [current]) [] where
  closed := by rw [close, hclosed, hopened, List.mapIdx_concat]
  opened := by
    rw [close, hopened, List.length_append]
    exact Partition.opened_eq_ofSegment ceiling (parts.length + 1)
  overflows := by rw [close, hoverflows, notices_concat]
  light := Nat.zero_le ceiling

namespace Represents

theorem closeFilled
    (h : c.Represents ceiling parts current) :
    c.closeFilled.Represents ceiling (parts ++ filled current) [] := by
  cases current with
  | nil =>
      have hempty : c.current.units.isEmpty := by simp [h.opened, Partition.ofSegment]
      rw [Cutting.closeFilled, if_pos hempty]
      simpa [filled] using h
  | cons u rest =>
      have hfilled : ¬ c.current.units.isEmpty := by simp [h.opened, Partition.ofSegment]
      rw [Cutting.closeFilled, if_neg hfilled]
      refine close_represents h.closed h.opened ?_
      rw [h.overflows, segmentNotices_of_light h.light, List.append_nil]

theorem placeAlone
    {u : Resource}
    (hheavy : ceiling < u.weight)
    (h : c.Represents ceiling parts current) :
    (c.placeAlone ceiling u).Represents ceiling (parts ++ filled current ++ [[u]]) [] := by
  have hready := h.closeFilled
  have hopen : c.closeFilled.current = .opened (parts ++ filled current).length := by
    rw [hready.opened, ← Partition.opened_eq_ofSegment]
  refine close_represents hready.closed ?_ ?_
  · simp only [hopen]
    exact Partition.pushOversized_opened hheavy
  · simp only [hopen, hready.overflows, segmentNotices_of_heavy hheavy]
    rfl

theorem push
    {u : Resource}
    (hfits : totalWeight current + u.weight ≤ ceiling)
    (h : c.Represents ceiling parts current) :
    { c with current := c.current.push u }.Represents ceiling parts (current ++ [u]) where
  closed := h.closed
  opened := by
    rw [h.opened]
    exact Partition.push_ofSegment hfits
  overflows := h.overflows
  light := by
    rw [totalWeight_append, totalWeight_singleton]
    exact hfits

theorem placeWithOthers
    {u : Resource}
    (hlight : u.weight ≤ ceiling)
    (h : c.Represents ceiling parts current) :
    if ceiling < totalWeight current + u.weight then
      (c.placeWithOthers ceiling u).Represents ceiling (parts ++ filled current) [u]
    else (c.placeWithOthers ceiling u).Represents ceiling parts (current ++ [u]) := by
  have hweight : c.current.weight = totalWeight current := by rw [h.opened]; rfl
  rw [Cutting.placeWithOthers, hweight]
  split
  · have hfits : totalWeight [] + u.weight ≤ ceiling := by simpa [totalWeight] using hlight
    exact h.closeFilled.push hfits
  · exact h.push (by omega)

/-- The loop makes the plan of the segments of the units that are left. -/
theorem foldl_finish
    (units : List Resource)
    (h : c.Represents ceiling parts current) :
    (units.foldl (Cutting.place ceiling) c).finish ceiling =
      ⟨ceiling, (parts ++ segments ceiling current units).mapIdx (Partition.ofSegment ceiling),
        notices ceiling (parts ++ segments ceiling current units)⟩ := by
  induction units generalizing c parts current with
  | nil =>
      have hlast := h.closeFilled
      have hoverflows : c.closeFilled.overflows = c.overflows := by
        rw [Cutting.closeFilled]
        split <;> rfl
      rw [segments, ← hlast.closed, ← hlast.overflows, hoverflows]
      rfl
  | cons u rest ih =>
      rw [List.foldl_cons, segments, Cutting.place]
      by_cases hheavy : ceiling < u.weight
      · rw [if_pos hheavy, if_pos hheavy, ih (h.placeAlone hheavy)]
        simp only [List.append_assoc, List.cons_append, List.nil_append]
      · have hstep := h.placeWithOthers (Nat.le_of_not_lt hheavy)
        rw [if_neg hheavy, if_neg hheavy]
        split
        · rename_i hfull
          rw [if_pos hfull] at hstep
          rw [ih hstep, List.append_assoc]
        · rename_i hfits
          rw [if_neg hfits] at hstep
          rw [ih hstep]

end Represents
end Cutting

/-- Segments are not empty, and hold one unit if they are heavier than the ceiling. -/
def IsSegment (ceiling : Nat) (units : List Resource) : Prop :=
  units ≠ [] ∧ (ceiling < totalWeight units → ∃ u, units = [u])

theorem flatten_filled
    (units : List Resource) :
    (filled units).flatten = units := by
  cases units <;> simp [filled]

theorem isSegment_of_mem_filled
    {ceiling : Nat}
    {current units : List Resource}
    (hlight : totalWeight current ≤ ceiling)
    (h : units ∈ filled current) :
    IsSegment ceiling units := by
  cases current with
  | nil => simp [filled] at h
  | cons u rest =>
      obtain rfl : units = u :: rest := by simpa [filled] using h
      refine ⟨List.cons_ne_nil u rest, fun hheavy => ?_⟩
      omega

theorem flatten_segments
    (ceiling : Nat)
    (current units : List Resource) :
    (segments ceiling current units).flatten = current ++ units := by
  induction units generalizing current with
  | nil => simp [segments, flatten_filled]
  | cons u rest ih =>
      rw [segments]
      split
      · simp [flatten_filled, ih]
      · split
        · simp [flatten_filled, ih]
        · simp [ih]

theorem isSegment_of_mem_segments
    {ceiling : Nat}
    {current units part : List Resource}
    (hlight : totalWeight current ≤ ceiling)
    (h : part ∈ segments ceiling current units) :
    IsSegment ceiling part := by
  induction units generalizing current with
  | nil => exact isSegment_of_mem_filled hlight h
  | cons u rest ih =>
      rw [segments] at h
      split at h
      · rcases List.mem_append.mp h with h | h
        · exact isSegment_of_mem_filled hlight h
        · rcases List.mem_cons.mp h with rfl | h
          · exact ⟨List.cons_ne_nil u [], fun _ => ⟨u, rfl⟩⟩
          · exact ih (by rw [totalWeight_nil]; omega) h
      · rename_i hu
        split at h
        · rcases List.mem_append.mp h with h | h
          · exact isSegment_of_mem_filled hlight h
          · exact ih (by rw [totalWeight_singleton]; omega) h
        · refine ih ?_ h
          rw [totalWeight_append, totalWeight_singleton]
          omega

namespace Plan

/-- The notice is about the unit, and names the partition that holds it. -/
structure Notifies (p : Plan) (ceiling : Nat) (o : Overflow) (u : Resource) : Prop where
  unit : o.unit = u.id
  weight : o.weight = u.weight
  limit : o.ceiling = ceiling
  holder : ∃ part, p.partitions[o.partition]? = some part ∧ u.id ∈ part.units

/-- The plan cuts the build order of a graph under a ceiling. -/
structure IsCut (p : Plan) (g : Graph) (ceiling : Nat) : Prop where
  limit : p.ceiling = ceiling
  order : p.partitions.flatMap (·.units) = g.orderIds
  filled : ∀ part ∈ p.partitions, part.units ≠ []
  index : ∀ (i : Nat) (part : Partition), p.partitions[i]? = some part →
    part.index = i ∧ part.name = "partition-" ++ toString i
  /-- A partition weighs as much as the units of the graph that it holds. -/
  weight : ∀ part ∈ p.partitions, part.weight = totalWeight (part.units.filterMap g.unit?)
  oversized : ∀ part ∈ p.partitions, part.oversized = true ↔ ceiling < part.weight
  alone : ∀ part ∈ p.partitions, part.oversized = true → ∃ id, part.units = [id]
  /-- There is one notice for each unit that is heavier than the ceiling, in the build order. -/
  overflows : List.Forall₂ (p.Notifies ceiling) p.overflows
    (g.order.filter fun u => ceiling < u.weight)

/-- The plan with a partition for each segment. -/
def ofSegments (ceiling : Nat) (parts : List (List Resource)) : Plan :=
  ⟨ceiling, parts.mapIdx (Partition.ofSegment ceiling), notices ceiling parts⟩

theorem cut_eq_ofSegments
    {g : Graph}
    {ceiling : Nat}
    (h : 1 ≤ ceiling) :
    cut g ceiling = .ok (ofSegments ceiling (segments ceiling [] g.order)) := by
  have hpos : ceiling ≠ 0 := Nat.pos_iff_ne_zero.mp h
  rw [cut, if_neg hpos, Cutting.start_represents.foldl_finish]
  rfl

theorem getElem?_ofSegments
    {ceiling i : Nat}
    {parts : List (List Resource)}
    {part : Partition} :
    (ofSegments ceiling parts).partitions[i]? = some part ↔
      ∃ units, parts[i]? = some units ∧ Partition.ofSegment ceiling i units = part := by
  rw [ofSegments, List.getElem?_mapIdx, Option.map_eq_some_iff]

theorem mem_ofSegments
    {ceiling : Nat}
    {parts : List (List Resource)}
    {part : Partition}
    (h : part ∈ (ofSegments ceiling parts).partitions) :
    ∃ i, ∃ units ∈ parts, Partition.ofSegment ceiling i units = part := by
  obtain ⟨i, hi⟩ := List.mem_iff_getElem?.mp h
  obtain ⟨units, hunits, hpart⟩ := getElem?_ofSegments.mp hi
  exact ⟨i, units, List.mem_of_getElem? hunits, hpart⟩

theorem units_ofSegments
    (ceiling : Nat)
    (parts : List (List Resource)) :
    (ofSegments ceiling parts).partitions.flatMap (·.units) = parts.flatten.map (·.id) := by
  induction parts using List.reverseRecOn with
  | nil => rfl
  | append_singleton parts units ih =>
      simp only [ofSegments, List.mapIdx_concat, List.flatMap_append, List.flatten_append,
        List.map_append] at ih ⊢
      rw [ih]
      simp [Partition.ofSegment]

/-- The plan under a ceiling is accepted. -/
theorem cut_accepted
    {g : Graph}
    {ceiling : Nat}
    {p : Plan}
    (h : cut g ceiling = .ok p) :
    p.check g = .ok () := by
  have hpositive : 1 ≤ ceiling := by
    refine Nat.one_le_iff_ne_zero.mpr ?_
    rintro rfl
    cases h
  rw [cut_eq_ofSegments hpositive, Except.ok.injEq] at h
  refine check_of_order ?_
  rw [← h, units_ofSegments, flatten_segments, List.nil_append]
  rfl

/-- The notices of the first segments are those of a plan that has these segments in front. -/
theorem notices_ofSegments
    {ceiling : Nat}
    {p : Plan}
    {parts : List (List Resource)}
    (hparts : ∀ i units, parts[i]? = some units →
      p.partitions[i]? = some (Partition.ofSegment ceiling i units)) :
    List.Forall₂ (p.Notifies ceiling) (notices ceiling parts)
      (parts.flatten.filter fun u => ceiling < u.weight) := by
  induction parts using List.reverseRecOn with
  | nil => exact List.Forall₂.nil
  | append_singleton parts units ih =>
      rw [notices_concat, List.flatten_append, List.filter_append, List.flatten_singleton]
      refine List.rel_append (ih fun i us hi => hparts i us ?_) ?_
      · rw [List.getElem?_append_left (List.getElem?_eq_some_iff.mp hi).1]
        exact hi
      · have hlast := hparts parts.length units List.getElem?_concat_length
        rw [segmentNotices, List.forall₂_map_left_iff, List.forall₂_same]
        intro u hu
        refine ⟨rfl, rfl, rfl, _, hlast, ?_⟩
        exact List.mem_map_of_mem (List.mem_of_mem_filter hu)

/-- The units of a graph are found under their names. -/
theorem filterMap_unit?
    {g : Graph}
    {units : List Resource}
    (h : ∀ u ∈ units, u ∈ g.units) :
    (units.map (·.id)).filterMap g.unit? = units := by
  have hfound : ∀ u ∈ units, (g.unit? ∘ (·.id)) u = some u := fun u hu =>
    g.unit?_eq_some_iff.mpr ⟨h u hu, rfl⟩
  rw [List.filterMap_map, List.filterMap_congr hfound, List.filterMap_some]

theorem ofSegments_isCut
    {g : Graph}
    {ceiling : Nat}
    {parts : List (List Resource)}
    (horder : parts.flatten = g.order)
    (hunits : ∀ u ∈ g.order, u ∈ g.units)
    (hsegments : ∀ units ∈ parts, IsSegment ceiling units) :
    (ofSegments ceiling parts).IsCut g ceiling where
  limit := rfl
  order := by rw [units_ofSegments, horder]; rfl
  filled := by
    intro part hpart
    obtain ⟨i, units, hmem, rfl⟩ := mem_ofSegments hpart
    simpa [Partition.ofSegment] using (hsegments units hmem).1
  index := by
    intro i part hpart
    obtain ⟨units, _, rfl⟩ := getElem?_ofSegments.mp hpart
    exact ⟨rfl, rfl⟩
  weight := by
    intro part hpart
    obtain ⟨i, units, hmem, rfl⟩ := mem_ofSegments hpart
    have hknown : ∀ u ∈ units, u ∈ g.units := fun u hu =>
      hunits u (horder ▸ List.mem_flatten_of_mem hmem hu)
    simp only [Partition.ofSegment, filterMap_unit? hknown]
  oversized := by
    intro part hpart
    obtain ⟨i, units, _, rfl⟩ := mem_ofSegments hpart
    simp [Partition.ofSegment]
  alone := by
    intro part hpart hoversized
    obtain ⟨i, units, hmem, rfl⟩ := mem_ofSegments hpart
    have hheavy : ceiling < totalWeight units := by
      simpa [Partition.ofSegment] using hoversized
    obtain ⟨u, rfl⟩ := (hsegments units hmem).2 hheavy
    exact ⟨u.id, rfl⟩
  overflows := by
    rw [← horder]
    exact notices_ofSegments fun i units hi => getElem?_ofSegments.mpr ⟨units, hi, rfl⟩

/-- Under every positive ceiling the loop cuts the build order. -/
theorem cut_isCut
    {ceiling : Nat}
    (h : 1 ≤ ceiling)
    (g : Graph) :
    ∃ p, cut g ceiling = .ok p ∧ p.IsCut g ceiling := by
  have hlight : totalWeight [] ≤ ceiling := by rw [totalWeight_nil]; omega
  refine ⟨_, cut_eq_ofSegments h, ofSegments_isCut ?_ ?_ ?_⟩
  · rw [flatten_segments, List.nil_append]
  · exact fun u hu => g.order_earliestFirst.mem_units hu
  · exact fun units hunits => isSegment_of_mem_segments hlight hunits

end Plan

/-- Units of which two in a row are heavy. -/
def Graph.uneven : Graph where
  units :=
    [⟨"network", .network, .null, [], 2⟩,
      ⟨"cluster", .kubernetes, .null, ["network"], 5⟩,
      ⟨"nodes", .compute, .null, ["cluster"], 7⟩,
      ⟨"dns", .network, .null, ["network"], 3⟩,
      ⟨"queue", .messaging, .null, ["nodes"], 1⟩]
  checked := by cbv

namespace Plan

theorem uneven_cut_isCut :
    1 ≤ 4 ∧ ∃ p, cut .uneven 4 = .ok p ∧ p.IsCut .uneven 4 ∧
      p.partitions.map (·.units) = [["network"], ["cluster"], ["nodes"], ["dns", "queue"]] ∧
      p.overflows = [⟨"cluster", 5, 4, 1⟩, ⟨"nodes", 7, 4, 2⟩] := by
  have hpositive : 1 ≤ 4 := by decide
  obtain ⟨p, hcut, hisCut⟩ := cut_isCut hpositive .uneven
  have hplan : (cut .uneven 4).map (fun p => (p.partitions.map (·.units), p.overflows)) =
      .ok ([["network"], ["cluster"], ["nodes"], ["dns", "queue"]],
        [⟨"cluster", 5, 4, 1⟩, ⟨"nodes", 7, 4, 2⟩]) := by cbv
  rw [hcut] at hplan
  obtain ⟨hunits, hoverflows⟩ := Prod.mk.inj (Except.ok.inj hplan)
  exact ⟨hpositive, p, hcut, hisCut, hunits, hoverflows⟩

end Plan
end Provision
