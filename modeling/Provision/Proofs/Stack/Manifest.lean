import Provision.Proofs.Graph.Refusal
import Provision.Proofs.Plan.Cut
import Provision.Proofs.Sorted
import Provision.Proofs.Stack.Refusal

/-!
# Manifests and the graphs of their units

A manifest is checked when it is loaded, and its units are checked again when a graph is made of
them.  Both checks go along the same entries in the same order and remember the names that they have
met, so they go in lock step: an entry that the first check passes is passed by the second one, which
then has met the same names.

**Verdicts.**  Names and weights of a manifest that was loaded need no further check, and neither
does its ceiling.  Where the first check stops at a name or a weight, the second one stops at the
same unit; if a unit has both faults, the first check names the weight and the second one the name.

**Results.**
* `ManifestEntry.Yields`: the units that an entry stands for.
* `Manifest.checkNames_of_entriesFault?`: the two checks stop at the same entry.
* `Manifest.load_verdict`: what is left to be refused once a manifest is loaded, and what would have
  been refused of a manifest that is not.
-/

namespace Provision
namespace Stack

/-- A unit for an entry. Its configuration is not settled by the entry. -/
structure ManifestEntry.Yields (entry : ManifestEntry) (u : Resource) : Prop where
  id : u.id = entry.id
  kind : u.kind = entry.kind
  /-- The dependencies of the entry as a set. -/
  dependsOn : ∀ d, d ∈ u.dependsOn ↔ d ∈ entry.dependsOn
  increasing : u.dependsOn.Pairwise (· < ·)
  weight : u.weight = entry.weight.getD 1

namespace Manifest

variable {s : Source} {m : Manifest} {entry : ManifestEntry} {entries : List ManifestEntry}
  {u : Resource} {us : List Resource} {seen : List String} {reason : String}

/-! ## Units of entries -/

theorem yields_of_unitOf
    (h : unitOf s entry = .ok u) :
    entry.Yields u ∧ configOf s entry = .ok u.config := by
  obtain ⟨config, hconfig, hunit⟩ := bind_eq_ok_iff.mp h
  cases hunit
  refine ⟨⟨rfl, rfl, ?_, Sorted.texts_pairwise _, rfl⟩, hconfig⟩
  exact fun d => Resource.mem_dependsOn_withDependencies rfl

theorem exists_unitOf
    (h : ∀ document, entry.document = some document → ∃ t, s.tree document = .ok t) :
    ∃ u, unitOf s entry = .ok u := by
  have hconfig : ∃ config, configOf s entry = .ok config := by
    rw [configOf]
    split
    · rename_i hdocument
      exact h _ hdocument
    · exact ⟨_, rfl⟩
    · exact ⟨_, rfl⟩
  obtain ⟨config, hconfig⟩ := hconfig
  exact ⟨_, bind_eq_ok_iff.mpr ⟨config, hconfig, rfl⟩⟩

/-- There is one unit for each entry if every document that is named can be read. -/
theorem exists_unitsOf
    (h : ∀ entry ∈ entries, ∀ document, entry.document = some document →
      ∃ t, s.tree document = .ok t) :
    ∃ us, unitsOf s entries = .ok us ∧
      List.Forall₂ (fun entry u => entry.Yields u ∧ configOf s entry = .ok u.config)
        entries us := by
  induction entries with
  | nil => exact ⟨[], rfl, .nil⟩
  | cons entry rest ih =>
      obtain ⟨hentry, hrest⟩ := List.forall_mem_cons.mp h
      obtain ⟨u, hu⟩ := exists_unitOf hentry
      obtain ⟨us, hus, hyields⟩ := ih hrest
      refine ⟨u :: us, ?_, .cons (yields_of_unitOf hu) hyields⟩
      rw [unitsOf, hu, hus]
      rfl

/-! ## Faults of entries -/

theorem entryFault?_eq_none_iff :
    entryFault? seen entry = none ↔
      ¬ (Text.trim entry.id).isEmpty ∧ ¬ (entry.document.isSome ∧ entry.config.isSome) ∧
        entry.weight ≠ some 0 ∧ entry.id ∉ seen := by
  rw [entryFault?]
  split_ifs <;> simp_all

/-- What may be wrong with an entry, in the order in which it is looked for. -/
theorem entryFault?_eq_some
    (h : entryFault? seen entry = some reason) :
    reason = "unit id must not be empty" ∨
      reason = "unit '" ++ entry.id ++ "' sets both document and config" ∨
      reason = "unit '" ++ entry.id ++ "' has weight 0; weights must be at least 1" ∧
        entry.weight = some 0 ∨
      reason = "unit '" ++ entry.id ++ "' is declared twice" ∧ entry.id ∈ seen := by
  rw [entryFault?] at h
  split_ifs at h with hempty hboth hweight hseen
  · exact Or.inl (Option.some.inj h).symm
  · exact Or.inr (Or.inl (Option.some.inj h).symm)
  · exact Or.inr (Or.inr (Or.inl ⟨(Option.some.inj h).symm, hweight⟩))
  · exact Or.inr (Or.inr (Or.inr
      ⟨(Option.some.inj h).symm, List.contains_iff_mem.mp hseen⟩))

/-- Texts that begin and end in the same way are told apart by what is between. -/
theorem between_inj
    {start finish id id' : String}
    (h : start ++ id ++ finish = start ++ id' ++ finish) :
    id = id' := by
  have htexts := congrArg String.toList h
  simp only [String.toList_append, List.append_assoc, List.append_cancel_left_eq,
    List.append_cancel_right_eq] at htexts
  exact String.toList_inj.mp htexts

/-- Of the reasons only this one ends in a digit. -/
theorem entryFault?_weightless
    {id : String}
    (h : entryFault? seen entry =
      some ("unit '" ++ id ++ "' has weight 0; weights must be at least 1")) :
    id = entry.id ∧ entry.weight = some 0 := by
  rcases entryFault?_eq_some h with htext | htext | ⟨htext, hweight⟩ | ⟨htext, _⟩
  case inr.inr.inl => exact ⟨between_inj htext, hweight⟩
  all_goals simpa [String.toList_append] using congrArg (fun t => t.toList.reverse.head?) htext

/-- Of the reasons that name an entry only this one ends in this letter. -/
theorem entryFault?_repeated
    {id : String}
    (h : entryFault? seen entry = some ("unit '" ++ id ++ "' is declared twice")) :
    id = entry.id ∧ entry.id ∈ seen := by
  rcases entryFault?_eq_some h with htext | htext | ⟨htext, _⟩ | ⟨htext, hseen⟩
  case inr.inr.inr => exact ⟨between_inj htext, hseen⟩
  all_goals simpa [String.toList_append] using congrArg (fun t => t.toList.reverse.head?) htext

/-- What is wrong with an entry is not what is wrong with a ceiling: the texts begin differently. -/
theorem entryFault?_ne_ceiling :
    entryFault? seen entry ≠ some "ceiling must be positive" := by
  intro h
  rcases entryFault?_eq_some h with htext | htext | ⟨htext, _⟩ | ⟨htext, _⟩
  all_goals simpa [String.toList_append] using congrArg (fun t => t.toList.head?) htext

/-! ## The two checks in lock step -/

/-- An entry without a fault is passed by both checks. -/
theorem checkNames_of_sound
    {rest : List Resource}
    (hyields : entry.Yields u)
    (h : entryFault? seen entry = none) :
    checkNames seen (u :: rest) = checkNames (entry.id :: seen) rest := by
  obtain ⟨_, _, hweight, hfresh⟩ := entryFault?_eq_none_iff.mp h
  have hpositive : entry.weight.getD 1 ≠ 0 := by
    cases hentry : entry.weight with
    | none => exact Nat.one_ne_zero
    | some w =>
        rintro rfl
        exact hweight hentry
  rw [checkNames, hyields.id, hyields.weight, if_neg (by simpa using hfresh), if_neg hpositive]

/-- The names and weights of entries without faults pass the check of graphs. -/
theorem checkNames_of_entriesFault?_eq_none
    (hyields : List.Forall₂ ManifestEntry.Yields entries us)
    (h : entriesFault? seen entries = none) :
    checkNames seen us = .ok () := by
  induction hyields generalizing seen with
  | nil => rfl
  | cons hhead _ ih =>
      rw [entriesFault?] at h
      split at h
      · cases h
      · rename_i hnone
        rw [checkNames_of_sound hhead hnone]
        exact ih h

/-- The check of graphs reaches the first entry with a fault, after the same names. -/
theorem checkNames_of_entriesFault?
    (hyields : List.Forall₂ ManifestEntry.Yields entries us)
    (h : entriesFault? seen entries = some reason) :
    ∃ entry u met later, entry.Yields u ∧ entryFault? met entry = some reason ∧
      checkNames seen us = checkNames met (u :: later) := by
  induction hyields generalizing seen with
  | nil => cases h
  | @cons entry u _ later hhead _ ih =>
      rw [entriesFault?] at h
      cases hfault : entryFault? seen entry with
      | some found =>
          rw [hfault] at h
          cases h
          exact ⟨entry, u, seen, later, hhead, hfault, rfl⟩
      | none =>
          rw [hfault] at h
          rw [checkNames_of_sound hhead hfault]
          exact ih h

theorem ofUnits_of_repeated
    {id : String}
    (hyields : List.Forall₂ ManifestEntry.Yields entries us)
    (h : entriesFault? [] entries = some ("unit '" ++ id ++ "' is declared twice")) :
    Graph.ofUnits us = .error (.duplicateUnit id) := by
  obtain ⟨entry, u, met, later, hunit, hfault, hcheck⟩ := checkNames_of_entriesFault? hyields h
  obtain ⟨rfl, hseen⟩ := entryFault?_repeated hfault
  refine Graph.ofUnits_of_checkNames ?_
  rw [hcheck, checkNames, hunit.id, if_pos (List.contains_iff_mem.mpr hseen)]

/-- A name that was met before hides that its unit has no weight. -/
theorem ofUnits_of_weightless
    {id : String}
    (hyields : List.Forall₂ ManifestEntry.Yields entries us)
    (h : entriesFault? [] entries =
      some ("unit '" ++ id ++ "' has weight 0; weights must be at least 1")) :
    Graph.ofUnits us = .error (.duplicateUnit id) ∨
      Graph.ofUnits us = .error (.invalidWeight id) := by
  obtain ⟨entry, u, met, later, hunit, hfault, hcheck⟩ := checkNames_of_entriesFault? hyields h
  obtain ⟨rfl, hzero⟩ := entryFault?_weightless hfault
  have hweight : u.weight = 0 := by rw [hunit.weight, hzero, Option.getD_some]
  rw [checkNames, hunit.id] at hcheck
  by_cases hseen : met.contains entry.id
  · exact Or.inl (Graph.ofUnits_of_checkNames (by rw [hcheck, if_pos hseen]))
  · exact Or.inr (Graph.ofUnits_of_checkNames (by rw [hcheck, if_neg hseen, if_pos hweight]))

/-! ## Verdicts -/

theorem fault?_eq_none_iff :
    m.fault? = none ↔ entriesFault? [] m.units = none ∧ m.ceiling ≠ some 0 := by
  rw [fault?]
  cases entriesFault? [] m.units with
  | some reason => simp
  | none => simp

/-- A manifest is at fault for its first faulty entry, or else for its ceiling. -/
theorem fault?_eq_some
    (h : m.fault? = some reason) :
    entriesFault? [] m.units = some reason ∨
      entriesFault? [] m.units = none ∧ m.ceiling = some 0 ∧ reason = "ceiling must be positive" := by
  rw [fault?] at h
  cases hentries : entriesFault? [] m.units with
  | some found =>
      rw [hentries] at h
      exact Or.inl h
  | none =>
      rw [hentries] at h
      by_cases hceiling : m.ceiling = some 0
      · simp only [if_pos hceiling, Option.some.injEq] at h
        exact Or.inr ⟨rfl, hceiling, h.symm⟩
      · simp only [if_neg hceiling, reduceCtorEq] at h

theorem entriesFault?_ne_ceiling :
    entriesFault? seen entries ≠ some "ceiling must be positive" := by
  induction entries generalizing seen with
  | nil => exact nofun
  | cons entry rest ih =>
      rw [entriesFault?]
      cases hfault : entryFault? seen entry with
      | some found =>
          dsimp only
          rw [← hfault]
          exact entryFault?_ne_ceiling
      | none =>
          dsimp only
          exact ih

/-- A manifest at fault for an entry has that fault also as a list of units. -/
theorem entriesFault?_of_fault?
    (hfault : m.fault? = some reason)
    (hother : reason ≠ "ceiling must be positive") :
    entriesFault? [] m.units = some reason := by
  rcases fault?_eq_some hfault with h | ⟨_, _, hreason⟩
  · exact h
  · exact absurd hreason hother

/-- The units of a manifest that was loaded are refused for their dependencies only, and its ceiling
can always be kept. A manifest that is rejected for a name, a weight or its ceiling would have been
refused as a graph or as a plan. -/
theorem load_verdict
    (s : Source)
    (path : String) :
    (∀ m, load s path = .ok m →
      (∀ entry ∈ m.units, ∀ document, entry.document = some document →
        ∃ t, s.tree document = .ok t) →
      ∃ us, m.resources s = .ok us ∧
        List.Forall₂ (fun entry u => entry.Yields u ∧ configOf s entry = .ok u.config)
          m.units us ∧
        (∀ e, Graph.ofUnits us = .error e →
          (∃ id d, e = .unknownDependency id d) ∨ ∃ ids, e = .cyclicDependency ids) ∧
        ∀ g ceiling, Graph.ofUnits us = .ok g → m.ceiling = some ceiling →
          ∃ p, Plan.cut g ceiling = .ok p) ∧
    ∀ reason, load s path = .error (.invalidManifest path reason) →
      ∃ m, s.load shape path = .ok m ∧
        ∀ us, List.Forall₂ ManifestEntry.Yields m.units us →
          (∀ id, reason = "unit '" ++ id ++ "' is declared twice" →
            Graph.ofUnits us = .error (.duplicateUnit id)) ∧
          (∀ id, reason = "unit '" ++ id ++ "' has weight 0; weights must be at least 1" →
            Graph.ofUnits us = .error (.duplicateUnit id) ∨
              Graph.ofUnits us = .error (.invalidWeight id)) ∧
          (reason = "ceiling must be positive" → m.ceiling = some 0 ∧
            ∀ g, Graph.ofUnits us = .ok g → Plan.cut g 0 = .error .invalidCeiling) := by
  constructor
  · intro m hload hdocuments
    obtain ⟨hentries, hceiling⟩ := fault?_eq_none_iff.mp (load_eq_ok_iff.mp hload).2
    obtain ⟨us, hus, hyields⟩ := exists_unitsOf hdocuments
    have hdeclared : WellDeclared us := wellDeclared_iff.mpr
      (checkNames_of_entriesFault?_eq_none (hyields.imp fun _ _ h => h.1) hentries)
    refine ⟨us, hus, hyields, fun e he => Graph.ofUnits_eq_error_of_wellDeclared hdeclared he, ?_⟩
    intro g ceiling _ hgiven
    have hpositive : 1 ≤ ceiling := by
      refine Nat.one_le_iff_ne_zero.mpr ?_
      rintro rfl
      exact hceiling hgiven
    exact ⟨_, Plan.cut_eq_ofSegments hpositive⟩
  · intro reason hload
    obtain ⟨m, hread, hfault⟩ := load_eq_invalid_iff.mp hload
    refine ⟨m, hread, fun us hyields => ⟨?_, ?_, ?_⟩⟩
    · rintro id rfl
      refine ofUnits_of_repeated hyields (entriesFault?_of_fault? hfault fun h => ?_)
      simpa [String.toList_append] using congrArg (fun t => t.toList.head?) h
    · rintro id rfl
      refine ofUnits_of_weightless hyields (entriesFault?_of_fault? hfault fun h => ?_)
      simpa [String.toList_append] using congrArg (fun t => t.toList.head?) h
    · rintro rfl
      obtain h | ⟨_, hceiling, _⟩ := fault?_eq_some hfault
      · exact absurd h entriesFault?_ne_ceiling
      · exact ⟨hceiling, fun _ _ => rfl⟩

/-! ## A manifest and three rejected ones -/

/-- A place with a manifest and a document. -/
def shelf (manifest : String) : Source where
  store := Store.ofTexts
    [("production/v1/stack.json", manifest), ("production/v1/vault.json", "[1]")]
  context := .empty
  environment := .production
  version := .v1
  overrides := []

/-- The second unit names its dependency twice. -/
def paired : String :=
  "[null, 2, [[\"net\", \"network\", null, null, [], null], " ++
    "[\"vault\", \"storage\", \"vault.json\", null, [\"net\", \"net\"], 3]]]"

/-- The second unit repeats the name of the first one. -/
def doubled (weight : String) : String :=
  "[null, 2, [[\"net\", \"network\", null, null, [], null], " ++
    "[\"net\", \"storage\", null, null, [], " ++ weight ++ "]]]"

theorem shelf_load_verdict :
    (∃ m us, load (shelf paired) "stack.json" = .ok m ∧ m.resources (shelf paired) = .ok us ∧
      us.map (·.weight) = [1, 3] ∧
      ∀ g, Graph.ofUnits us = .ok g → ∃ p, Plan.cut g 2 = .ok p) ∧
    (∃ m, (shelf (doubled "1")).load shape "stack.json" = .ok m ∧
      ∀ us, List.Forall₂ ManifestEntry.Yields m.units us →
        Graph.ofUnits us = .error (.duplicateUnit "net")) ∧
    (∃ m, (shelf (doubled "0")).load shape "stack.json" = .ok m ∧
      ∀ us, List.Forall₂ ManifestEntry.Yields m.units us →
        Graph.ofUnits us = .error (.duplicateUnit "net") ∨
          Graph.ofUnits us = .error (.invalidWeight "net")) ∧
    ∃ m, (shelf "[null, 0, []]").load shape "stack.json" = .ok m ∧
      ∀ us, List.Forall₂ ManifestEntry.Yields m.units us → m.ceiling = some 0 ∧
        ∀ g, Graph.ofUnits us = .ok g → Plan.cut g 0 = .error .invalidCeiling := by
  have hrejected : ∀ manifest reason,
      ((shelf manifest).load shape "stack.json").toOption.bind (·.fault?) = some reason →
        load (shelf manifest) "stack.json" = .error (.invalidManifest "stack.json" reason) := by
    intro manifest reason h
    cases hread : (shelf manifest).load shape "stack.json" with
    | error e =>
        rw [hread] at h
        cases h
    | ok m =>
        rw [hread] at h
        exact load_eq_invalid_iff.mpr ⟨m, hread, h⟩
  refine ⟨?_, ?_, ?_, ?_⟩
  · have hread : ((load (shelf paired) "stack.json").toOption.map fun m =>
        (m.ceiling, m.units.map fun entry => (entry.document, entry.weight))) =
        some (some 2, [(none, none), (some "vault.json", some 3)]) := by
      decide +kernel
    have hdocument : ∃ t, (shelf paired).tree "vault.json" = .ok t :=
      exists_ok_of_isSome (by decide +kernel)
    cases hload : load (shelf paired) "stack.json" with
    | error e =>
        rw [hload] at hread
        cases hread
    | ok m =>
        simp only [hload, Except.toOption, Option.map_some, Option.some.injEq, Prod.mk.injEq,
          List.map_eq_cons_iff, List.map_eq_nil_iff] at hread
        obtain ⟨hceiling, net, _, hunits, ⟨hnet, hnetweight⟩, vault, _, rfl,
          ⟨hvault, hvaultweight⟩, rfl⟩ := hread
        have hdocuments : ∀ entry ∈ m.units, ∀ document, entry.document = some document →
            ∃ t, (shelf paired).tree document = .ok t := by
          simp only [hunits, List.forall_mem_cons, hnet, hvault, Option.some.injEq, forall_eq']
          exact ⟨nofun, hdocument, nofun⟩
        obtain ⟨us, hus, hyields, _, hcut⟩ :=
          (load_verdict (shelf paired) "stack.json").1 m hload hdocuments
        refine ⟨m, us, rfl, hus, ?_, fun g hg => hcut g 2 hg hceiling⟩
        rw [hunits] at hyields
        obtain _ | ⟨⟨hfirst, _⟩, _ | ⟨⟨hsecond, _⟩, _ | _⟩⟩ := hyields
        simp [hfirst.weight, hsecond.weight, hnetweight, hvaultweight]
  · obtain ⟨m, hread, hverdict⟩ := (load_verdict (shelf (doubled "1")) "stack.json").2 _
      (hrejected _ "unit 'net' is declared twice" (by decide +kernel))
    exact ⟨m, hread, fun us hyields => (hverdict us hyields).1 "net" (by decide)⟩
  · obtain ⟨m, hread, hverdict⟩ := (load_verdict (shelf (doubled "0")) "stack.json").2 _
      (hrejected _ "unit 'net' has weight 0; weights must be at least 1" (by decide +kernel))
    exact ⟨m, hread, fun us hyields => (hverdict us hyields).2.1 "net" (by decide)⟩
  · obtain ⟨m, hread, hverdict⟩ := (load_verdict (shelf "[null, 0, []]") "stack.json").2 _
      (hrejected _ "ceiling must be positive" (by decide +kernel))
    exact ⟨m, hread, fun us hyields => (hverdict us hyields).2.2 rfl⟩

end Manifest
end Stack
end Provision
