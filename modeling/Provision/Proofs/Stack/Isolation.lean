import Provision.Proofs.Template.Places
import Provision.Stack.Manifest
import Provision.Stack.Platform

/-!
# Environments and versions are isolated

Documents name further documents, and the names come from texts that anyone may have written.  A
stack that is read for one environment and version sees nothing of any other, whatever paths its
documents hold.

A source is asked for documents only by `Source.resolve`, so two sources that resolve every path in
the same way read the same manifests and the same platforms.  That two stores which agree beneath a
place resolve every path in the same way is `Store.resolve_of_agreeBelow`.

**Results.**
* `Source.Agrees.manifest_load`, `Source.Agrees.units`, `Source.Agrees.platform_load`: sources that
  agree on documents agree on stacks.
* `Stack.isolated`: stores that agree beneath a place give the same stacks, or the same errors, for
  this place.
-/

namespace Provision

open Stack

namespace Source

/-- Two sources that resolve every path in the same way. -/
def Agrees (s s' : Source) : Prop := ∀ path, s.resolve path = s'.resolve path

/-- Sources for one place with stores that agree beneath it. -/
theorem agrees_of_agreeBelow
    {e : Environment}
    {v : Version}
    {store store' : Store}
    (h : Store.AgreeBelow e v store store')
    (c : Context)
    (overrides : Variables) :
    Agrees ⟨store, c, e, v, overrides⟩ ⟨store', c, e, v, overrides⟩ := by
  intro path
  have hrequest := Store.resolve_of_agreeBelow (r := ⟨e, v, path, overrides⟩) h c
  rw [resolve, resolve]
  exact congrArg (·.mapError StackError.template) hrequest

namespace Agrees

variable {s s' : Source}

/-! ## Documents -/

theorem load
    {α : Type}
    (h : Agrees s s')
    (shape : Shape α)
    (path : String) :
    s.load shape path = s'.load shape path := by
  rw [Source.load, Source.load, h path]

theorem load?
    {α : Type}
    (h : Agrees s s')
    (shape : Shape α)
    (path : Option String) :
    s.load? shape path = s'.load? shape path := by
  cases path with
  | none => rfl
  | some path => rw [Source.load?, Source.load?, h.load shape path]

theorem tree
    (h : Agrees s s')
    (path : String) :
    s.tree path = s'.tree path := by
  rw [Source.tree, Source.tree, h path]

/-! ## Manifests -/

theorem manifest_load
    (h : Agrees s s')
    (path : String) :
    Manifest.load s path = Manifest.load s' path := by
  rw [Manifest.load, Manifest.load, h.load Manifest.shape path]

theorem unitOf
    (h : Agrees s s')
    (entry : ManifestEntry) :
    Manifest.unitOf s entry = Manifest.unitOf s' entry := by
  have hconfig : Manifest.configOf s entry = Manifest.configOf s' entry := by
    rw [Manifest.configOf, Manifest.configOf]
    split
    · exact h.tree _
    · rfl
    · rfl
  rw [Manifest.unitOf, Manifest.unitOf, hconfig]

/-- The units are read one after the other, each from the documents that its entry names. -/
theorem unitsOf
    (h : Agrees s s')
    (entries : List ManifestEntry) :
    Manifest.unitsOf s entries = Manifest.unitsOf s' entries := by
  induction entries with
  | nil => rfl
  | cons entry rest ih => rw [Manifest.unitsOf, Manifest.unitsOf, h.unitOf entry, ih]

theorem units
    (h : Agrees s s')
    (m : Manifest) :
    m.resources s = m.resources s' :=
  h.unitsOf m.units

/-! ## Platforms -/

theorem setup_load
    (h : Agrees s s')
    (path : String) :
    ClusterSetup.load s path = ClusterSetup.load s' path := by
  rw [ClusterSetup.load, ClusterSetup.load]
  simp only [h.load, h.load?]

theorem platform_load
    (h : Agrees s s')
    (path : String) :
    Platform.load s path = Platform.load s' path := by
  rw [Platform.load, Platform.load]
  simp only [h.load, h.setup_load]

end Agrees
end Source

namespace Stack

/-- Stores that agree beneath an environment and a version give the same manifests with the same
units and the same platforms with the same units, or the same errors, for this environment and
version. -/
theorem isolated
    {e : Environment}
    {v : Version}
    {store store' : Store}
    (h : Store.AgreeBelow e v store store')
    (c : Context)
    (overrides : Variables)
    (path : String) :
    let s : Source := ⟨store, c, e, v, overrides⟩
    let s' : Source := ⟨store', c, e, v, overrides⟩
    (do
      let m ← Manifest.load s path
      let us ← m.resources s
      return (m, us)) =
      (do
        let m ← Manifest.load s' path
        let us ← m.resources s'
        return (m, us)) ∧
    (do
      let p ← Platform.load s path
      return (p, p.units)) =
      (do
        let p ← Platform.load s' path
        return (p, p.units)) := by
  intro s s'
  have hagrees : Source.Agrees s s' := Source.agrees_of_agreeBelow h c overrides
  constructor
  · rw [hagrees.manifest_load path]
    simp only [hagrees.units]
  · rw [hagrees.platform_load path]

/-! ## A document that steps out of its place -/

/-- A manifest of the first version whose unit names a document of the second one. -/
def intruding (secret : String) : Entries String :=
  [("production/v1/stack.json",
      "[null, null, [[\"a\", \"network\", \"../v2/secret.json\", null, [], null]]]"),
    ("production/v2/secret.json", secret)]

theorem intruding_agreeBelow
    (secret secret' : String) :
    Store.AgreeBelow .production .v1 (Store.ofTexts (intruding secret))
      (Store.ofTexts (intruding secret')) := by
  refine .texts fun path _ => ?_
  have hother : "production/v2/secret.json" ≠
      Environment.production.label ++ "/" ++ Version.v1.label ++ "/" ++ path := by
    intro h
    have hstart := congrArg (fun s => s.toList.take 13) h
    simp [String.toList_append, Environment.label, Version.label] at hstart
  rw [intruding, intruding, Entries.find?_cons, Entries.find?_cons, Entries.find?_cons,
    Entries.find?_cons, if_neg hother, if_neg hother]

/-- The manifest gives the same units, or the same error, whatever the other version holds. -/
theorem intruding_isolated :
    Store.AgreeBelow .production .v1 (Store.ofTexts (intruding "1"))
        (Store.ofTexts (intruding "2")) ∧
      Store.ofTexts (intruding "1") ≠ Store.ofTexts (intruding "2") ∧
      let s : Source := ⟨Store.ofTexts (intruding "1"), .empty, .production, .v1, []⟩
      let s' : Source := ⟨Store.ofTexts (intruding "2"), .empty, .production, .v1, []⟩
      (do
        let m ← Manifest.load s "stack.json"
        let us ← m.resources s
        return (m, us)) =
        (do
          let m ← Manifest.load s' "stack.json"
          let us ← m.resources s'
          return (m, us)) := by
  refine ⟨intruding_agreeBelow "1" "2", ?_,
    (isolated (intruding_agreeBelow "1" "2") .empty [] "stack.json").1⟩
  intro h
  have hsecret := congrFun h "production/v2/secret.json"
  simp [Store.ofTexts, intruding, Entries.find?_cons] at hsecret

end Stack
end Provision
