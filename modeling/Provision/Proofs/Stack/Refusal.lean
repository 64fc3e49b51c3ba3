import Provision.Proofs.Chain
import Provision.Stack.Manifest
import Provision.Stack.Platform

/-!
# Stacks that cannot be read

A stack is read document by document.  Whatever goes wrong on the way is an error of a document,
unless a manifest was read that is at fault itself; graphs, plans and builders come later.

**Results.**
* `Source.load_fails`, `Source.tree_fails`: what goes wrong with a document.
* `Manifest.load_fails`, `Manifest.resources_fails`, `Platform.load_fails`: what goes wrong with a
  stack.
-/

namespace Provision

open Stack

/-- The error is one of a document. -/
def StackError.OfDocument (e : StackError) : Prop := ∃ fault, e = .template fault

/-! ## Documents -/

namespace Source

variable {α : Type}

theorem resolve_fails
    (s : Source)
    (path : String) :
    FailsWith StackError.OfDocument (s.resolve path) :=
  .mapError fun fault _ => ⟨fault, rfl⟩

theorem load_fails
    (s : Source)
    (shape : Shape α)
    (path : String) :
    FailsWith StackError.OfDocument (s.load shape path) :=
  (s.resolve_fails path).bind fun _ _ => .mapError fun fault _ => ⟨fault, rfl⟩

theorem load?_fails
    (s : Source)
    (shape : Shape α)
    (path : Option String) :
    FailsWith StackError.OfDocument (s.load? shape path) := by
  cases path with
  | none => exact .ok none
  | some path => exact (s.load_fails shape path).map

theorem tree_fails
    (s : Source)
    (path : String) :
    FailsWith StackError.OfDocument (s.tree path) :=
  (s.resolve_fails path).bind fun _ _ => .mapError fun _ _ => ⟨_, rfl⟩

end Source

namespace Stack

/-! ## Manifests -/

namespace Manifest

variable {s : Source} {path : String} {m : Manifest}

theorem load_eq_ok_iff :
    load s path = .ok m ↔ s.load shape path = .ok m ∧ m.fault? = none := by
  rw [load, bind_eq_ok_iff]
  constructor
  · rintro ⟨m', hload, h⟩
    split at h
    · cases h
    · rename_i hfault
      cases h
      exact ⟨hload, hfault⟩
  · rintro ⟨hload, hfault⟩
    exact ⟨m, hload, by rw [hfault]⟩

theorem load_eq_invalid_iff
    {reason : String} :
    load s path = .error (.invalidManifest path reason) ↔
      ∃ m, s.load shape path = .ok m ∧ m.fault? = some reason := by
  rw [load, bind_eq_error_iff]
  constructor
  · rintro (hload | ⟨m, hload, h⟩)
    · obtain ⟨_, h⟩ := s.load_fails shape path _ hload
      cases h
    · split at h
      · rename_i found hfault
        cases h
        exact ⟨m, hload, hfault⟩
      · cases h
  · rintro ⟨m, hload, hfault⟩
    exact Or.inr ⟨m, hload, by rw [hfault]⟩

/-- The manifest cannot be read, or it is at fault itself. -/
theorem load_fails
    (s : Source)
    (path : String) :
    FailsWith (fun e => e.OfDocument ∨ ∃ reason, e = .invalidManifest path reason)
      (load s path) := by
  refine FailsWith.bind (fun e h => Or.inl (s.load_fails shape path e h)) fun m _ => ?_
  split
  · exact .error (Or.inr ⟨_, rfl⟩)
  · exact .ok m

theorem unitOf_fails
    (s : Source)
    (entry : ManifestEntry) :
    FailsWith StackError.OfDocument (unitOf s entry) := by
  refine FailsWith.bind ?_ fun _ _ => .ok _
  rw [configOf]
  split
  · exact s.tree_fails _
  · exact .ok _
  · exact .ok _

/-- The units of a manifest need nothing but the documents of their configurations. -/
theorem resources_fails
    (m : Manifest)
    (s : Source) :
    FailsWith StackError.OfDocument (m.resources s) := by
  rw [resources]
  induction m.units with
  | nil => exact .ok _
  | cons entry rest ih =>
      rw [unitsOf]
      exact (unitOf_fails s entry).bind fun _ _ => ih.bind fun _ _ => .ok _

end Manifest

/-! ## Platforms -/

theorem ClusterSetup.load_fails
    (s : Source)
    (path : String) :
    FailsWith StackError.OfDocument (ClusterSetup.load s path) :=
  (s.load_fails _ path).bind fun _ _ => (s.load?_fails _ _).bind fun _ _ =>
    (s.load?_fails _ _).bind fun _ _ => (s.load?_fails _ _).bind fun _ _ =>
      (s.load?_fails _ _).bind fun _ _ => .ok _

theorem Platform.load_fails
    (s : Source)
    (path : String) :
    FailsWith StackError.OfDocument (Platform.load s path) := by
  refine (s.load_fails _ path).bind fun spec _ => (s.load_fails _ _).bind fun network _ => ?_
  split
  · exact .ok _
  · exact (ClusterSetup.load_fails s _).bind fun _ _ => .ok _

end Stack
end Provision
