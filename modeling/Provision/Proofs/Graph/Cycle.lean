import Mathlib.Data.List.Chain
import Mathlib.Data.List.Perm.Subperm
import Provision.Proofs.Graph.Refusal

/-!
# The cycle that is reported

A walk goes from a unit to the first declared unit that depends on it, but only to units that are
companions of the first one: they depend on it and it depends on them.

**Walk.**  `Walk` says which states a walk comes through, without a bound on its length.  A companion
always has a companion that depends on it, so the walk is never stuck; and as long as it comes to new
companions they are pairwise distinct, so there are no more of them than units.  Hence it comes to a
name that it met before, within the bound that `follow` is given.

**Cycle.**  What was met before that name is dropped.  The rest is a path whose last name is followed
by its first one.

**Results.**
* `follow_closes`: a walk that is never stuck closes within its bound.
* `Graph.ofUnits_cyclic`: the names that are reported are a cycle that is intertwined with the first
  declared unit on a cycle.
-/

namespace Provision

open Relation

/-- The names along a cycle: each is a dependency of the one after it, the last one is the first one
again, and the others are pairwise distinct. -/
structure IsCycle (units : List Resource) (ids : List String) : Prop where
  long : 2 ≤ ids.length
  closed : ids.getLast? = ids.head?
  distinct : ids.dropLast.Nodup
  linked : ids.IsChain fun d id => DependsOn units id d

/-- The first declared unit that lies on a cycle. -/
structure IsFirstCyclic (units : List Resource) (first : Resource) : Prop where
  returns : DependsVia units first.id first.id
  earliest : ∃ before after, units = before ++ first :: after ∧
    ∀ u ∈ before, ¬ DependsVia units u.id u.id

/-- The names are the same, or each depends on the other through a chain. -/
def Intertwined (units : List Resource) (id other : String) : Prop :=
  id = other ∨ DependsVia units id other ∧ DependsVia units other id

/-! ## Walks -/

section Walk

variable (next : String → Option String) (root : String)

/-- The states of a walk: the names that it met, and the name that it has come to. -/
inductive Walk : List String → String → Prop
  | start :
      Walk [] root
  | step
      {path : List String}
      {id other : String}
      (before : Walk path id)
      (fresh : id ∉ path)
      (taken : next id = some other) :
      Walk (path ++ [id]) other

end Walk

namespace Walk

variable {next : String → Option String} {root : String} {path : List String} {id : String}

/-- No name is met twice on the way. -/
theorem nodup
    (h : Walk next root path id) :
    path.Nodup := by
  induction h with
  | start => exact List.nodup_nil
  | step _ fresh _ ih =>
      refine ih.append (List.nodup_singleton _) ?_
      simpa using fresh

/-- Every name is followed by the next one. -/
theorem isChain
    (h : Walk next root path id) :
    (path ++ [id]).IsChain fun a b => next a = some b := by
  induction h with
  | start => exact List.IsChain.singleton root
  | step _ _ taken ih =>
      refine ih.append (List.IsChain.singleton _) ?_
      simpa using taken

/-- What holds of the first name and is kept by every step holds of all names of the walk. -/
theorem forall_mem
    {P : String → Prop}
    (h : Walk next root path id)
    (hroot : P root)
    (hnext : ∀ a b, P a → next a = some b → P b) :
    P id ∧ ∀ a ∈ path, P a := by
  induction h with
  | start => exact ⟨hroot, fun _ ha => absurd ha List.not_mem_nil⟩
  | step _ _ taken ih =>
      obtain ⟨hid, hpath⟩ := ih
      refine ⟨hnext _ _ hid taken, fun a ha => ?_⟩
      rcases List.mem_append.mp ha with ha | ha
      · exact hpath a ha
      · exact (List.mem_singleton.mp ha) ▸ hid

end Walk

/-- A walk that is stuck nowhere and meets no more names than its bound closes: `follow` stops
because it comes to a name that was met before. -/
theorem follow_closes
    {next : String → Option String}
    {root : String}
    {bound : Nat}
    (hgoes : ∀ path id, Walk next root path id → id ∉ path → ∃ other, next id = some other)
    (hbound : ∀ path id, Walk next root path id → path.length ≤ bound)
    {n : Nat}
    {path : List String}
    {id : String}
    (h : Walk next root path id)
    (hfuel : bound < path.length + n) :
    ∃ met last, Walk next root met last ∧ last ∈ met ∧
      follow next n path id = met.dropWhile (· != last) ++ [last] := by
  induction n generalizing path id with
  | zero => exact absurd (hbound path id h) (Nat.not_le_of_lt hfuel)
  | succ n ih =>
      rw [follow]
      by_cases hmet : id ∈ path
      · rw [if_pos (List.contains_iff_mem.mpr hmet)]
        exact ⟨path, id, h, hmet, rfl⟩
      · obtain ⟨other, hother⟩ := hgoes path id h hmet
        rw [if_neg (mt List.contains_iff_mem.mp hmet), hother]
        refine ih (h.step hmet hother) ?_
        rw [List.length_append, List.length_singleton]
        omega

/-! ## Companions -/

/-- The names that depend on a unit and on which it depends. -/
def companions (units : List Resource) (root : Resource) : List String :=
  (downstream units root.id).filter fun id => (downstream units id).contains root.id

/-- The first declared companion of a unit that depends on a name. -/
def nextCompanion? (units : List Resource) (root : Resource) (id : String) : Option String :=
  ((dependentsOf units id).find? fun u => (companions units root).contains u.id).map (·.id)

/-- A walk among the companions of a unit. -/
abbrev CompanionWalk (units : List Resource) (root : Resource) : List String → String → Prop :=
  Walk (nextCompanion? units root) root.id

theorem cycleFrom_eq_follow
    (units : List Resource)
    (root : Resource) :
    cycleFrom units root = follow (nextCompanion? units root) (units.length + 1) [] root.id :=
  rfl

/-- How the cycle to report is found: the walk goes on as long as it comes to new names, it does so
no more often than there are units, and it is cut where it comes to a name that was met before. -/
structure IsClosedWalk (units : List Resource) (root : Resource) (ids : List String) : Prop where
  goesOn : ∀ path id, CompanionWalk units root path id → id ∉ path →
    ∃ other, nextCompanion? units root id = some other
  bounded : ∀ path id, CompanionWalk units root path id → path.length ≤ units.length
  closes : ∃ path id, CompanionWalk units root path id ∧ id ∈ path ∧
    ids = path.dropWhile (· != id) ++ [id]

section Companions

variable {units : List Resource} {root : Resource} {id other : String}

theorem mem_companions_iff :
    id ∈ companions units root ↔ DependsVia units id root.id ∧ DependsVia units root.id id := by
  rw [companions, List.mem_filter, List.contains_iff_mem, mem_downstream_iff, mem_downstream_iff]

theorem nextCompanion?_eq_some
    (h : nextCompanion? units root id = some other) :
    DependsOn units other id ∧ other ∈ companions units root := by
  obtain ⟨u, hfind, rfl⟩ := Option.map_eq_some_iff.mp h
  obtain ⟨hu, hd⟩ := List.mem_filter.mp (List.mem_of_find?_eq_some hfind)
  have hcompanion := List.find?_some hfind
  exact ⟨⟨u, hu, rfl, List.contains_iff_mem.mp hd⟩, List.contains_iff_mem.mp hcompanion⟩

/-- A companion has a companion that depends on it. -/
theorem exists_nextCompanion?
    (h : id ∈ companions units root) :
    ∃ other, nextCompanion? units root id = some other := by
  obtain ⟨hto, hfrom⟩ := mem_companions_iff.mp h
  -- the last step of the chain from the first unit to the name
  obtain ⟨other, hchain, hstep⟩ := TransGen.tail'_iff.mp hfrom
  have hother : other ∈ companions units root := by
    refine mem_companions_iff.mpr ⟨TransGen.head hstep hto, ?_⟩
    rcases reflTransGen_iff_eq_or_transGen.mp hchain with rfl | hvia
    · exact hfrom.trans hto
    · exact hvia
  obtain ⟨u, hu, rfl, hd⟩ := hstep
  have hfound : ((dependentsOf units id).find? fun u =>
      (companions units root).contains u.id).isSome = true := by
    refine List.find?_isSome.mpr ⟨u, List.mem_filter.mpr ⟨hu, ?_⟩, ?_⟩
    · exact List.contains_iff_mem.mpr hd
    · exact List.contains_iff_mem.mpr hother
  obtain ⟨v, hv⟩ := Option.isSome_iff_exists.mp hfound
  exact ⟨v.id, by rw [nextCompanion?, hv, Option.map_some]⟩

/-- A walk from a unit on a cycle meets companions of the unit only. -/
theorem CompanionWalk.mem_companions
    {path : List String}
    (hreturns : DependsVia units root.id root.id)
    (h : CompanionWalk units root path id) :
    id ∈ companions units root ∧ ∀ a ∈ path, a ∈ companions units root :=
  h.forall_mem (mem_companions_iff.mpr ⟨hreturns, hreturns⟩)
    fun _ _ _ hnext => (nextCompanion?_eq_some hnext).2

theorem mem_ids_of_mem_companions
    (h : id ∈ companions units root) :
    id ∈ units.map (·.id) := by
  obtain ⟨_, ⟨u, hu, rfl, _⟩, _⟩ := TransGen.head'_iff.mp (mem_companions_iff.mp h).1
  exact List.mem_map_of_mem hu

/-- The walk from a unit on a cycle closes. -/
theorem cycleFrom_isClosedWalk
    (hreturns : DependsVia units root.id root.id) :
    IsClosedWalk units root (cycleFrom units root) := by
  have hgoes : ∀ path id, CompanionWalk units root path id → id ∉ path →
      ∃ other, nextCompanion? units root id = some other :=
    fun _ _ hwalk _ => exists_nextCompanion? (CompanionWalk.mem_companions hreturns hwalk).1
  have hbound : ∀ path id, CompanionWalk units root path id → path.length ≤ units.length := by
    intro path id hwalk
    have hsub : path ⊆ units.map (·.id) := fun a ha =>
      mem_ids_of_mem_companions ((CompanionWalk.mem_companions hreturns hwalk).2 a ha)
    simpa using (List.subperm_of_subset hwalk.nodup hsub).length_le
  refine ⟨hgoes, hbound, ?_⟩
  rw [cycleFrom_eq_follow]
  refine follow_closes hgoes hbound .start ?_
  rw [List.length_nil]
  omega

/-- Where a walk comes to a name that it met before, a cycle closes. -/
theorem CompanionWalk.isCycle
    {path : List String}
    (h : CompanionWalk units root path id)
    (hmet : id ∈ path) :
    IsCycle units (path.dropWhile (· != id) ++ [id]) := by
  obtain ⟨lead, round, rfl, hlead⟩ := List.eq_append_cons_of_mem hmet
  have hcut : (lead ++ id :: round).dropWhile (· != id) = id :: round := by
    have hdropped : ∀ a ∈ lead, (a != id) = true := fun a ha =>
      bne_iff_ne.mpr fun heq => hlead (heq ▸ ha)
    rw [List.dropWhile_append_of_pos hdropped, List.dropWhile_cons_of_neg (by simp)]
  have hchain : ((id :: round) ++ [id]).IsChain fun d id => DependsOn units id d := by
    refine (h.isChain.imp fun a b hab => (nextCompanion?_eq_some hab).1).suffix ?_
    rw [List.append_assoc]
    exact List.suffix_append lead _
  rw [hcut]
  refine ⟨?_, ?_, ?_, hchain⟩
  · simp
  · rw [List.getLast?_concat]
    rfl
  · rw [List.dropLast_concat]
    exact (List.nodup_append.mp h.nodup).2.1

end Companions

/-- The third pass reports the cycle that is found from the first unit on a cycle. -/
theorem checkAcyclic_eq_cyclic
    {units : List Resource}
    {ids : List String}
    (h : checkAcyclic units = .error (.cyclicDependency ids)) :
    ∃ first, IsFirstCyclic units first ∧ cycleFrom units first = ids := by
  rw [checkAcyclic] at h
  cases hfind : units.find? (onCycle units) with
  | none =>
      rw [hfind] at h
      cases h
  | some first =>
      rw [hfind] at h
      cases h
      obtain ⟨hcyclic, before, after, hsplit, hbefore⟩ := List.find?_eq_some_iff_append.mp hfind
      refine ⟨first, ⟨onCycle_iff.mp hcyclic, before, after, hsplit, fun u hu hvia => ?_⟩, rfl⟩
      have hnot := hbefore u hu
      rw [onCycle_iff.mpr hvia] at hnot
      cases hnot

/-- Only the third pass reports cycles. -/
theorem checkAcyclic_of_checkUnits
    {units : List Resource}
    {ids : List String}
    (h : checkUnits units = .error (.cyclicDependency ids)) :
    checkAcyclic units = .error (.cyclicDependency ids) := by
  rcases check_bind_eq_error h with hnames | ⟨_, h⟩
  · have hnone : WellDeclared [] := by simp [WellDeclared]
    obtain ⟨_, _, _, _, _, ⟨_, he⟩ | ⟨_, _, he⟩⟩ := checkNames_eq_error (by simp) hnone hnames
    · cases he
    · cases he
  · rcases check_bind_eq_error h with hclosed | ⟨_, hcycle⟩
    · obtain ⟨_, _, _, _, _, _, _, he⟩ := checkDependencies_eq_error hclosed
      cases he
    · exact hcycle

namespace Graph

/-- Units that are refused for a cycle have the cycle that is reported, and it is intertwined with
the first declared unit on a cycle; the walk that finds it is never stuck, and it closes. -/
theorem ofUnits_cyclic
    {units : List Resource}
    {ids : List String}
    (h : ofUnits units = .error (.cyclicDependency ids)) :
    IsCycle units ids ∧ ∃ first, IsFirstCyclic units first ∧
      (∀ id ∈ ids, Intertwined units id first.id) ∧ IsClosedWalk units first ids := by
  obtain ⟨first, hfirst, rfl⟩ :=
    checkAcyclic_eq_cyclic (checkAcyclic_of_checkUnits (ofUnits_eq_error_iff.mp h))
  have hclosed := cycleFrom_isClosedWalk hfirst.returns
  obtain ⟨path, last, hwalk, hmet, hcycle⟩ := hclosed.closes
  obtain ⟨hlast, hpath⟩ := CompanionWalk.mem_companions hfirst.returns hwalk
  refine ⟨hcycle ▸ hwalk.isCycle hmet, first, hfirst, fun id hid => ?_, hclosed⟩
  have hcompanion : id ∈ companions units first := by
    rw [hcycle] at hid
    rcases List.mem_append.mp hid with hid | hid
    · exact hpath id ((List.dropWhile_sublist _).subset hid)
    · exact (List.mem_singleton.mp hid) ▸ hlast
  exact Or.inr (mem_companions_iff.mp hcompanion)

/-- Units on several cycles: from the first of these units the walk comes to two others that depend
on each other, and goes on between them. -/
def entwined : List Resource :=
  [⟨"dns", .network, .null, [], 1⟩,
    ⟨"account", .identity, .null, ["dns", "vault"], 1⟩,
    ⟨"bridge", .network, .null, ["account", "cluster"], 1⟩,
    ⟨"cluster", .kubernetes, .null, ["bridge"], 1⟩,
    ⟨"vault", .storage, .null, ["cluster"], 1⟩,
    ⟨"mirror", .storage, .null, ["mirror"], 1⟩]

theorem entwined_ofUnits_cyclic :
    ofUnits entwined = .error (.cyclicDependency ["bridge", "cluster", "bridge"]) ∧
      IsCycle entwined ["bridge", "cluster", "bridge"] ∧
      ∃ first, IsFirstCyclic entwined first ∧
        (∀ id ∈ ["bridge", "cluster", "bridge"], Intertwined entwined id first.id) ∧
        IsClosedWalk entwined first ["bridge", "cluster", "bridge"] := by
  have herror : ofUnits entwined = .error (.cyclicDependency ["bridge", "cluster", "bridge"]) :=
    ofUnits_eq_error_iff.mpr (by cbv)
  exact ⟨herror, ofUnits_cyclic herror⟩

end Graph
end Provision
