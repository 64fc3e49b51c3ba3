import Mathlib.Data.List.Find
import Provision.Proofs.Graph.Declared

/-!
# One more unit

A unit with a new name is put somewhere among accepted units, and depends on some of these.  No unit
depends on it, so

* no chain of dependencies leads to it, and there is no cycle with it;
* whether another unit can be placed does not depend on whether it is placed already.

Where the order of all units takes another unit, the order without the new one takes the same unit;
where it takes the new one, the order without it goes on.

**Results.**
* `Buildable.insert`: the units are accepted together with the new one.
* `EarliestFirst.delete`: an order without the new unit is the order of the other units.
* `Graph.orderIds_insert`: the new unit does not change the order of the other ones.
-/

namespace Provision

open Relation

section Insertion

variable {before after : List Resource} {x : Resource}

theorem mem_insertion_iff
    {u : Resource} :
    u ∈ before ++ x :: after ↔ u = x ∨ u ∈ before ++ after := by
  rw [List.perm_middle.mem_iff, List.mem_cons]

/-- A unit that is put among others does not change what is found first, unless it is found. -/
theorem find?_insertion
    {q : Resource → Bool}
    (hfound : (before ++ x :: after).find? q ≠ some x) :
    (before ++ after).find? q = (before ++ x :: after).find? q := by
  rw [List.find?_append, List.find?_append, List.find?_cons] at *
  cases hbefore : before.find? q with
  | some u => rfl
  | none =>
      cases hx : q x with
      | false => rfl
      | true => simp [hbefore, hx] at hfound

/-- No unit has a name, and none depends on it. -/
def Unused (id : String) (units : List Resource) : Prop :=
  ∀ u ∈ units, u.id ≠ id ∧ id ∉ u.dependsOn

theorem Unused.of_buildable
    {id : String}
    {units : List Resource}
    (h : Buildable units)
    (hnew : id ∉ units.map (·.id)) :
    Unused id units := by
  intro u hu
  refine ⟨?_, fun hd => hnew (h.closed u hu id hd)⟩
  rintro rfl
  exact hnew (List.mem_map_of_mem hu)

/-- No chain leads to the new unit, and a chain from another unit does without it. -/
theorem DependsVia.of_insertion
    (hunused : Unused x.id (before ++ after))
    (hself : x.id ∉ x.dependsOn)
    {id d : String}
    (h : DependsVia (before ++ x :: after) id d) :
    d ≠ x.id ∧ (id ≠ x.id → DependsVia (before ++ after) id d) := by
  have hstep : ∀ {id d}, DependsOn (before ++ x :: after) id d →
      d ≠ x.id ∧ (id ≠ x.id → DependsOn (before ++ after) id d) := by
    rintro id d ⟨u, hu, rfl, hd⟩
    rcases mem_insertion_iff.mp hu with rfl | hu
    · exact ⟨fun heq => hself (heq ▸ hd), fun hne => absurd rfl hne⟩
    · exact ⟨fun heq => (hunused u hu).2 (heq ▸ hd), fun _ => ⟨u, hu, rfl, hd⟩⟩
  induction h with
  | single hlast => exact ⟨(hstep hlast).1, fun hid => TransGen.single ((hstep hlast).2 hid)⟩
  | tail _ hlast ih => exact ⟨(hstep hlast).1, fun hid => (ih.2 hid).tail ((hstep hlast).2 ih.1)⟩

/-- Units are accepted together with a new one that depends on some of them. -/
theorem Buildable.insert
    (h : Buildable (before ++ after))
    (hnew : x.id ∉ (before ++ after).map (·.id))
    (hweight : x.weight ≠ 0)
    (hdepends : ∀ d ∈ x.dependsOn, d ∈ (before ++ after).map (·.id)) :
    Buildable (before ++ x :: after) := by
  have hids : ((before ++ x :: after).map (·.id)).Perm (x.id :: (before ++ after).map (·.id)) :=
    List.perm_middle.map Resource.id
  have hself : x.id ∉ x.dependsOn := fun hd => hnew (hdepends _ hd)
  refine ⟨⟨?_, ?_⟩, ?_, ?_⟩
  · exact hids.nodup_iff.mpr (List.nodup_cons.mpr ⟨hnew, h.wellDeclared.1⟩)
  · intro u hu
    rcases mem_insertion_iff.mp hu with rfl | hu
    · exact hweight
    · exact h.wellDeclared.2 u hu
  · intro u hu d hd
    refine hids.mem_iff.mpr (List.mem_cons_of_mem _ ?_)
    rcases mem_insertion_iff.mp hu with rfl | hu
    · exact hdepends d hd
    · exact h.closed u hu d hd
  · intro u hu hcycle
    obtain ⟨hne, hother⟩ := DependsVia.of_insertion (.of_buildable h hnew) hself hcycle
    have hu := (mem_insertion_iff.mp hu).resolve_left fun heq => hne (congrArg _ heq)
    exact h.acyclic u hu (hother hne)

/-- A unit that does not depend on a name can be placed as well without it. -/
theorem canPlace_filter
    {id : String}
    {placed : List String}
    {u : Resource}
    (hid : u.id ≠ id)
    (hdepends : id ∉ u.dependsOn) :
    canPlace (placed.filter (· != id)) u = canPlace placed u := by
  have hne : ∀ d ∈ u.dependsOn, d ≠ id := fun d hd heq => hdepends (heq ▸ hd)
  rw [Bool.eq_iff_iff, canPlace_iff, canPlace_iff]
  simp only [List.mem_filter, bne_iff_ne, ne_eq, hid, not_false_eq_true, and_true]
  refine and_congr_right fun _ => ⟨fun h d hd => (h d hd).1, fun h d hd => ⟨h d hd, hne d hd⟩⟩

/-- Among the other units the same one is next, unless the new unit is next. -/
theorem nextUnit?_insertion
    (hunused : Unused x.id (before ++ after))
    {placed : List String}
    (hnext : nextUnit? (before ++ x :: after) placed ≠ some x) :
    nextUnit? (before ++ after) (placed.filter (· != x.id)) =
      nextUnit? (before ++ x :: after) placed := by
  rw [nextUnit?, nextUnit?, ← find?_insertion hnext]
  refine List.find?_congr ?_
  intro u hu
  exact canPlace_filter (hunused u hu).1 (hunused u hu).2

/-- An order without the new unit is the order of the other units. -/
theorem EarliestFirst.delete
    (hunused : Unused x.id (before ++ after))
    {placed : List String}
    {order : List Resource}
    (h : EarliestFirst (before ++ x :: after) placed order) :
    EarliestFirst (before ++ after) (placed.filter (· != x.id)) (order.filter (·.id != x.id)) := by
  induction order generalizing placed with
  | nil =>
      have hnone : nextUnit? (before ++ x :: after) placed = none := h
      have hnext : nextUnit? (before ++ x :: after) placed ≠ some x := by simp [hnone]
      exact (nextUnit?_insertion hunused hnext).trans hnone
  | cons u rest ih =>
      obtain ⟨hfirst, hrest⟩ := h
      have hrest := ih hrest
      rcases mem_insertion_iff.mp (nextUnit?_eq_some hfirst).1 with rfl | hu
      · simpa using hrest
      · have hne := (hunused u hu).1
        have hnext : nextUnit? (before ++ x :: after) placed ≠ some x := by
          rw [hfirst]
          rintro heq
          exact hne (congrArg Resource.id (Option.some.inj heq))
        rw [List.filter_append, List.filter_cons_of_pos (by simpa using hne),
          List.filter_nil] at hrest
        rw [List.filter_cons_of_pos (by simpa using hne)]
        exact ⟨(nextUnit?_insertion hunused hnext).trans hfirst, hrest⟩

end Insertion

namespace Graph

/-- A new unit that is put anywhere among accepted units, and depends on some of them, is accepted
with them and does not change their build order. -/
theorem orderIds_insert
    {before after : List Resource}
    {g : Graph}
    (h : ofUnits (before ++ after) = .ok g)
    {x : Resource}
    (hnew : x.id ∉ (before ++ after).map (·.id))
    (hweight : 0 < x.weight)
    (hdepends : ∀ d ∈ x.dependsOn, d ∈ (before ++ after).map (·.id)) :
    ∃ g', ofUnits (before ++ x :: after) = .ok g' ∧
      g'.orderIds.filter (· != x.id) = g.orderIds := by
  have hunits := ofUnits_eq_ok_iff.mp h
  have hbuildable : Buildable (before ++ after) := hunits ▸ buildable_iff.mpr g.checked
  obtain ⟨g', haccepted, hunits'⟩ := exists_ofUnits_iff.mpr
    (hbuildable.insert hnew (Nat.ne_of_gt hweight) hdepends)
  have horder := g.order_earliestFirst
  have horder' := g'.order_earliestFirst
  rw [hunits] at horder
  rw [hunits'] at horder'
  have hsame := (horder'.delete (.of_buildable hbuildable hnew)).unique horder
  refine ⟨g', haccepted, ?_⟩
  rw [orderIds, orderIds, ← hsame, List.filter_map]
  rfl

/-- A unit before the network that it depends on joins the layers, and the other units keep their
order. -/
theorem layered_orderIds_insert :
    let x : Resource := ⟨"audit", .compute, .null, ["nodes", "network"], 3⟩
    let before := layered.units.take 2
    let after := layered.units.drop 2
    ofUnits (before ++ after) = .ok layered ∧ x.id ∉ (before ++ after).map (·.id) ∧
      (∀ d ∈ x.dependsOn, d ∈ (before ++ after).map (·.id)) ∧
      ∃ g', ofUnits (before ++ x :: after) = .ok g' ∧
        g'.orderIds.filter (· != x.id) = ["dns", "network", "cluster", "nodes", "addons"] := by
  intro x before after
  have haccepted : ofUnits (before ++ after) = .ok layered := ofUnits_eq_ok_iff.mpr rfl
  have hnew : x.id ∉ (before ++ after).map (·.id) := by decide
  have hdepends : ∀ d ∈ x.dependsOn, d ∈ (before ++ after).map (·.id) := by decide
  have horder : layered.orderIds = ["dns", "network", "cluster", "nodes", "addons"] := by cbv
  refine ⟨haccepted, hnew, hdepends, ?_⟩
  rw [← horder]
  exact orderIds_insert haccepted hnew (by decide) hdepends

end Graph
end Provision
