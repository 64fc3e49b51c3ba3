import Provision.Proofs.Graph.Acceptance

/-!
# Refused units

Units are checked in three passes.  The first one stops at the unit that repeats a name or has no
weight, the second one at the unit with an unknown dependency, and the third one finds a cycle.  A
pass is reached only if the passes before it have found nothing, so the error tells which of the
conditions of acceptance fails first.

**Results.**
* `Refused.of_checkUnits`: what an error of the checks says about the units.
* `Graph.ofUnits_verdict`: when units are accepted, and which error refuses them otherwise.
-/

namespace Provision

/-- The names of the units are pairwise distinct and their weights positive. -/
def WellDeclared (units : List Resource) : Prop :=
  (units.map (·.id)).Nodup ∧ ∀ u ∈ units, u.weight ≠ 0

/-- Every dependency of the units is one of the names. -/
def DependsWithin (names : List String) (units : List Resource) : Prop :=
  ∀ u ∈ units, ∀ d ∈ u.dependsOn, d ∈ names

/-- Units that can be built: well declared, closed under dependencies, and none depends on itself. -/
structure Buildable (units : List Resource) : Prop where
  wellDeclared : WellDeclared units
  closed : DependsWithin (units.map (·.id)) units
  acyclic : ∀ u ∈ units, ¬ DependsVia units u.id u.id

/-- The error that refuses units. The units before the one that is named have no fault of the same
kind, and the whole list has none of the kinds that are looked for earlier. -/
inductive Refused (units : List Resource) : BuildError → Prop
  | duplicate
      {before after : List Resource}
      {u : Resource}
      (split : units = before ++ u :: after)
      (sound : WellDeclared before)
      (repeated : u.id ∈ before.map (·.id)) :
      Refused units (.duplicateUnit u.id)
  | weightless
      {before after : List Resource}
      {u : Resource}
      (split : units = before ++ u :: after)
      (sound : WellDeclared before)
      (fresh : u.id ∉ before.map (·.id))
      (weightless : u.weight = 0) :
      Refused units (.invalidWeight u.id)
  /-- Of the unknown dependencies of the unit the least one is named. -/
  | unknown
      {before after : List Resource}
      {u : Resource}
      {d : String}
      (wellDeclared : WellDeclared units)
      (split : units = before ++ u :: after)
      (sound : DependsWithin (units.map (·.id)) before)
      (depends : d ∈ u.dependsOn)
      (missing : d ∉ units.map (·.id))
      (least : ∀ other ∈ u.dependsOn, other ∉ units.map (·.id) → d ≤ other) :
      Refused units (.unknownDependency u.id d)
  | cyclic
      {u : Resource}
      {path : List String}
      (wellDeclared : WellDeclared units)
      (closed : DependsWithin (units.map (·.id)) units)
      (mem : u ∈ units)
      (returns : DependsVia units u.id u.id) :
      Refused units (.cyclicDependency path)

theorem buildable_iff
    {units : List Resource} :
    Buildable units ↔ checkUnits units = .ok () := by
  rw [checkUnits_eq_ok_iff]
  constructor
  · rintro ⟨hdeclared, hclosed, hacyclic⟩
    exact ⟨hdeclared, hclosed, hacyclic⟩
  · rintro ⟨hdeclared, hclosed, hacyclic⟩
    exact ⟨hdeclared, hclosed, hacyclic⟩

theorem wellDeclared_iff
    {units : List Resource} :
    WellDeclared units ↔ checkNames [] units = .ok () := by
  simp [WellDeclared, checkNames_eq_ok_iff]

theorem wellDeclared_concat_iff
    {units : List Resource}
    {u : Resource} :
    WellDeclared (units ++ [u]) ↔
      WellDeclared units ∧ u.id ∉ units.map (·.id) ∧ u.weight ≠ 0 := by
  simp only [WellDeclared, List.map_append, List.map_cons, List.map_nil, List.nodup_append_comm,
    List.singleton_append, List.nodup_cons, List.forall_mem_append, List.forall_mem_singleton]
  tauto

/-- The first ones of well declared units are well declared. -/
theorem WellDeclared.of_append
    {units others : List Resource}
    (h : WellDeclared (units ++ others)) :
    WellDeclared units := by
  obtain ⟨hnodup, hweights⟩ := h
  rw [List.map_append] at hnodup
  exact ⟨(List.nodup_append.mp hnodup).1, fun u hu => hweights u (List.mem_append_left _ hu)⟩

/-- The first pass stops at the first unit that is not well declared after those before it. -/
theorem checkNames_eq_error
    {declared units : List Resource}
    {e : BuildError}
    {seen : List String}
    (hseen : ∀ id, id ∈ seen ↔ id ∈ declared.map (·.id))
    (hdeclared : WellDeclared declared)
    (h : checkNames seen units = .error e) :
    ∃ before u after, declared ++ units = before ++ u :: after ∧ WellDeclared before ∧
      (u.id ∈ before.map (·.id) ∧ e = .duplicateUnit u.id ∨
        u.id ∉ before.map (·.id) ∧ u.weight = 0 ∧ e = .invalidWeight u.id) := by
  induction units generalizing seen declared with
  | nil => cases h
  | cons u rest ih =>
      simp only [checkNames, List.contains_iff_mem] at h
      by_cases hmem : u.id ∈ seen
      · rw [if_pos hmem] at h
        cases h
        exact ⟨declared, u, rest, rfl, hdeclared, Or.inl ⟨(hseen u.id).mp hmem, rfl⟩⟩
      · have hfresh : u.id ∉ declared.map (·.id) := fun h => hmem ((hseen u.id).mpr h)
        rw [if_neg hmem] at h
        by_cases hweight : u.weight = 0
        · rw [if_pos hweight] at h
          cases h
          exact ⟨declared, u, rest, rfl, hdeclared, Or.inr ⟨hfresh, hweight, rfl⟩⟩
        · rw [if_neg hweight] at h
          have hnext := wellDeclared_concat_iff.mpr ⟨hdeclared, hfresh, hweight⟩
          have hseen' : ∀ id, id ∈ u.id :: seen ↔ id ∈ (declared ++ [u]).map (·.id) := by
            simp [hseen, or_comm]
          obtain ⟨before, v, after, hsplit, hfound⟩ := ih hseen' hnext h
          exact ⟨before, v, after, by simpa using hsplit, hfound⟩

/-- The second pass stops at the first unit with an unknown dependency, at the first of these. -/
theorem checkDependencies_eq_error
    {known : List String}
    {units : List Resource}
    {e : BuildError}
    (h : checkDependencies known units = .error e) :
    ∃ before u after d, units = before ++ u :: after ∧ DependsWithin known before ∧
      (u.dependsOn.find? fun d => !known.contains d) = some d ∧
        e = .unknownDependency u.id d := by
  induction units with
  | nil => cases h
  | cons u rest ih =>
      rw [checkDependencies] at h
      cases hfind : u.dependsOn.find? fun d => !known.contains d with
      | some d =>
          rw [hfind] at h
          cases h
          exact ⟨[], u, rest, d, rfl, by simp [DependsWithin], hfind, rfl⟩
      | none =>
          rw [hfind] at h
          have hall : ∀ d ∈ u.dependsOn, d ∈ known := by
            simpa using List.find?_eq_none.mp hfind
          obtain ⟨before, v, after, d, rfl, hbefore, hfound⟩ := ih h
          refine ⟨u :: before, v, after, d, rfl, ?_, hfound⟩
          exact List.forall_mem_cons.mpr ⟨hall, hbefore⟩

/-- The third pass reports a cycle. -/
theorem checkAcyclic_eq_error
    {units : List Resource}
    {e : BuildError}
    (h : checkAcyclic units = .error e) :
    ∃ u ∈ units, DependsVia units u.id u.id ∧ ∃ path, e = .cyclicDependency path := by
  rw [checkAcyclic] at h
  cases hfind : units.find? (onCycle units) with
  | none =>
      rw [hfind] at h
      cases h
  | some u =>
      rw [hfind] at h
      cases h
      exact ⟨u, List.mem_of_find?_eq_some hfind, onCycle_iff.mp (List.find?_some hfind), _, rfl⟩

/-- What an error of the checks says about the units. -/
theorem Refused.of_checkUnits
    {units : List Resource}
    {e : BuildError}
    (hsets : ∀ u ∈ units, u.dependsOn.Pairwise (· < ·))
    (h : checkUnits units = .error e) :
    Refused units e := by
  rcases check_bind_eq_error h with hnames | ⟨hnames, h⟩
  · have hnone : WellDeclared [] := by simp [WellDeclared]
    obtain ⟨before, u, after, hsplit, hbefore, hfault⟩ :=
      checkNames_eq_error (by simp) hnone hnames
    rcases hfault with ⟨hrepeated, rfl⟩ | ⟨hfresh, hweight, rfl⟩
    · exact .duplicate hsplit hbefore hrepeated
    · exact .weightless hsplit hbefore hfresh hweight
  · have hdeclared := wellDeclared_iff.mpr hnames
    rcases check_bind_eq_error h with hclosed | ⟨hclosed, hcycle⟩
    · obtain ⟨before, u, after, d, hsplit, hbefore, hfind, rfl⟩ :=
        checkDependencies_eq_error hclosed
      have hu : u ∈ units := by simp [hsplit]
      have hmissing : d ∉ units.map (·.id) := by simpa using List.find?_some hfind
      refine .unknown hdeclared hsplit hbefore (List.mem_of_find?_eq_some hfind) hmissing ?_
      intro other hother hunknown
      exact le_of_find?_increasing (hsets u hu) hfind hother (by simpa using hunknown)
    · obtain ⟨u, hu, hreturns, path, rfl⟩ := checkAcyclic_eq_error hcycle
      exact .cyclic hdeclared (checkDependencies_eq_ok_iff.mp hclosed) hu hreturns

namespace Graph

theorem exists_ofUnits_iff
    {units : List Resource} :
    (∃ g, ofUnits units = .ok g ∧ g.units = units) ↔ Buildable units := by
  rw [buildable_iff]
  constructor
  · rintro ⟨g, _, rfl⟩
    exact g.checked
  · intro h
    exact ⟨⟨units, h⟩, ofUnits_eq_ok_iff.mpr rfl, rfl⟩

theorem ofUnits_eq_error_iff
    {units : List Resource}
    {e : BuildError} :
    ofUnits units = .error e ↔ checkUnits units = .error e := by
  rw [ofUnits]
  split
  · rename_i h
    constructor
    · intro hg
      cases hg
    · intro he
      rw [h] at he
      cases he
  · rename_i e' h
    rw [h, Except.error.injEq, Except.error.injEq]

/-- An error of the first pass refuses units, whatever the other passes would find. -/
theorem ofUnits_of_checkNames
    {units : List Resource}
    {e : BuildError}
    (h : checkNames [] units = .error e) :
    ofUnits units = .error e := by
  refine ofUnits_eq_error_iff.mpr ?_
  rw [checkUnits, h]
  rfl

/-- Well declared units are refused for an unknown dependency or for a cycle. -/
theorem ofUnits_eq_error_of_wellDeclared
    {units : List Resource}
    {e : BuildError}
    (hdeclared : WellDeclared units)
    (h : ofUnits units = .error e) :
    (∃ id d, e = .unknownDependency id d) ∨ ∃ path, e = .cyclicDependency path := by
  rcases check_bind_eq_error (ofUnits_eq_error_iff.mp h) with hnames | ⟨_, h⟩
  · rw [wellDeclared_iff.mp hdeclared] at hnames
    cases hnames
  · rcases check_bind_eq_error h with hclosed | ⟨_, hcycle⟩
    · obtain ⟨_, u, _, d, _, _, _, rfl⟩ := checkDependencies_eq_error hclosed
      exact Or.inl ⟨u.id, d, rfl⟩
    · obtain ⟨_, _, _, path, rfl⟩ := checkAcyclic_eq_error hcycle
      exact Or.inr ⟨path, rfl⟩

/-- Units are refused before anything is built. -/
theorem ofUnits_fails
    (units : List Resource) :
    FailsWith (fun e => e.isValidation = true) (ofUnits units) := by
  intro e h
  rcases check_bind_eq_error (ofUnits_eq_error_iff.mp h) with hnames | ⟨hnames, _⟩
  · have hnone : WellDeclared [] := by simp [WellDeclared]
    obtain ⟨_, _, _, _, _, ⟨_, rfl⟩ | ⟨_, _, rfl⟩⟩ := checkNames_eq_error (by simp) hnone hnames
    · rfl
    · rfl
  · rcases ofUnits_eq_error_of_wellDeclared (wellDeclared_iff.mpr hnames) h with
      ⟨_, _, rfl⟩ | ⟨_, rfl⟩
    · rfl
    · rfl

/-- A name that is repeated after well declared units refuses them, whatever comes later. -/
theorem ofUnits_of_repeated
    {before after : List Resource}
    {u : Resource}
    (hdeclared : WellDeclared before)
    (hrepeated : u.id ∈ before.map (·.id)) :
    ofUnits (before ++ u :: after) = .error (.duplicateUnit u.id) := by
  have hstops : ∀ seen, checkNames seen before = .ok () → u.id ∈ seen ++ before.map (·.id) →
      checkNames seen (before ++ u :: after) = .error (.duplicateUnit u.id) := by
    clear hdeclared hrepeated
    induction before with
    | nil =>
        intro seen _ hmem
        have hseen : u.id ∈ seen := by simpa using hmem
        simp [checkNames, hseen]
    | cons v rest ih =>
        intro seen hpass hmem
        rw [checkNames] at hpass
        split at hpass
        · cases hpass
        · rename_i hfresh
          split at hpass
          · cases hpass
          · rename_i hweight
            rw [List.cons_append, checkNames, if_neg hfresh, if_neg hweight]
            refine ih (v.id :: seen) hpass ?_
            simp only [List.map_cons, List.mem_append, List.mem_cons] at hmem ⊢
            tauto
  exact ofUnits_of_checkNames
    (hstops [] (wellDeclared_iff.mp hdeclared) (by simpa using hrepeated))

/-- Units are accepted iff they can be built; otherwise the first fault that is looked for is the
error. -/
theorem ofUnits_verdict
    {units : List Resource}
    (hsets : ∀ u ∈ units, u.dependsOn.Pairwise (· < ·)) :
    ((∃ g, ofUnits units = .ok g ∧ g.units = units) ↔ Buildable units) ∧
      ∀ e, ofUnits units = .error e → Refused units e :=
  ⟨exists_ofUnits_iff, fun _ h => .of_checkUnits hsets (ofUnits_eq_error_iff.mp h)⟩

/-- Units on a cycle, one of which has two unknown dependencies. -/
def haunted : List Resource :=
  [⟨"vault", .storage, .null, ["crypt"], 1⟩,
    ⟨"crypt", .storage, .null, ["ghost", "vault", "wraith"], 1⟩]

/-- The unknown dependency hides the cycle. -/
theorem haunted_ofUnits_verdict :
    (∀ u ∈ haunted, u.dependsOn.Pairwise (· < ·)) ∧
      ofUnits haunted = .error (.unknownDependency "crypt" "ghost") ∧
      Refused haunted (.unknownDependency "crypt" "ghost") ∧ ¬ Buildable haunted := by
  have hsets : ∀ u ∈ haunted, u.dependsOn.Pairwise (· < ·) := by decide
  have herror : ofUnits haunted = .error (.unknownDependency "crypt" "ghost") :=
    ofUnits_eq_error_iff.mpr (by cbv)
  obtain ⟨haccepted, hrefused⟩ := ofUnits_verdict hsets
  refine ⟨hsets, herror, hrefused _ herror, fun hbuildable => ?_⟩
  obtain ⟨g, hg, _⟩ := haccepted.mpr hbuildable
  rw [herror] at hg
  cases hg

end Graph
end Provision
