import Provision.Proofs.Shape.Delivery
import Provision.Proofs.Shape.RoundTrip
import Provision.Stack.Manifest
import Provision.Stack.Platform

/-!
# Types of configuration

The documents of a deployment hold networks, clusters, node groups, queues, addons, observability,
platforms, manifests, contexts and units.  These types and their parts are listed with their shapes,
and what is shown of shapes in general is applied to them here.

**Results.**
* `configurationTypes_namesApart`: within every listed type the names are told apart by every
  spelling.
* `Shape.materialize_respelled`: how keys of records and labels of choices are spelt does not matter,
  and everything else is read as it stands.
* `configurationTypes_regular`: fields that are left out stand for what is written as null.
* `Shape.materialize_toTree`: a value that was read survives being written and read again.
-/

namespace Provision

/-- A type with its shape. -/
structure Described where
  {α : Type}
  shape : Shape α

open Stack in
/-- The types that the documents of a deployment are read as, with their parts. -/
def configurationTypes : List Described :=
  [⟨SubnetKind.shape⟩, ⟨AddressFamily.shape⟩, ⟨Tenancy.shape⟩, ⟨Subnet.shape⟩,
    ⟨SecurityGroup.shape⟩, ⟨Network.shape⟩, ⟨EndpointAccess.shape⟩, ⟨CapacityType.shape⟩,
    ⟨Cluster.shape⟩, ⟨NodeGroup.shape⟩, ⟨Shape.list NodeGroup.shape⟩, ⟨QueueRule.shape⟩,
    ⟨Queue.shape⟩, ⟨ManagedAddon.shape⟩, ⟨ManagedAddons.shape⟩, ⟨Chart.shape⟩, ⟨Addons.shape⟩,
    ⟨MetricFilter.shape⟩, ⟨Alarm.shape⟩, ⟨Dashboard.shape⟩, ⟨Observability.shape⟩,
    ⟨PlatformSpec.shape⟩, ⟨ManifestEntry.shape⟩, ⟨Manifest.shape⟩, ⟨Environment.shape⟩,
    ⟨Version.shape⟩, ⟨Scope.shape⟩, ⟨Context.shape⟩, ⟨Kind.shape⟩, ⟨Resource.shape⟩]

theorem configurationTypes_namesApart :
    ∀ d ∈ configurationTypes, d.shape.NamesApart := by
  decide +kernel

/-- A value is read from a tree iff it is read from every respelling of the tree, for every shape
whose names are told apart by every spelling; the types of configuration have such shapes.  Nothing
but spellings of names is given up: in a value that is read, texts, keys of maps and free-form trees
are as they stand in the tree. -/
theorem Shape.materialize_respelled :
    (∀ d ∈ configurationTypes, d.shape.NamesApart) ∧
      ∀ {α : Type} (s : Shape α), s.NamesApart →
        (∀ (document : String) (t t' : Tree), s.Respelled t t' →
          ∀ a, s.materialize document t = .ok a ↔ s.materialize document t' = .ok a) ∧
        ∀ (document : String) (t : Tree) (a : α), s.materialize document t = .ok a →
          s.Delivers t a := by
  refine ⟨configurationTypes_namesApart, fun s hapart => ⟨?_, ?_⟩⟩
  · intro document t t' h a
    rw [materialize, materialize, mapError_eq_ok_iff, mapError_eq_ok_iff]
    exact Shape.read_respelled s hapart h
  · intro document t a h
    exact Shape.delivers_of_read s hapart (mapError_eq_ok_iff.mp h)

/-- A context with its fields as they are declared.  The names of its variables differ only in their
spelling, and one variable holds a tree with a key that spells a field. -/
def plainContext : Tree :=
  .object [("host", .object [("environment", .text "production"), ("id", .text "Ops_Team")]),
    ("variables", .object [("homeDir", .text "Pro-Duction"),
      ("home_dir", .object [("HOST", .null)])])]

/-- The same context in other spellings. -/
def respeltContext : Tree :=
  .object [("HOST", .object [("Id", .text "Ops_Team"), ("environment", .text "Pro-Duction")]),
    ("Variables", .object [("homeDir", .text "Pro-Duction"),
      ("home_dir", .object [("HOST", .null)])])]

theorem plainContext_respelled :
    Context.shape.Respelled plainContext respeltContext := by
  have hhost : Scope.shape.Respelled
      (.object [("environment", .text "production"), ("id", .text "Ops_Team")])
      (.object [("Id", .text "Ops_Team"), ("environment", .text "Pro-Duction")]) := by
    refine ⟨_, List.Perm.swap _ _ _,
      .cons ⟨by decide +kernel, ?_⟩ (.cons ⟨by decide +kernel, ?_⟩ .nil)⟩
    · exact (by decide +kernel : Text.sameName "production" "Pro-Duction" = true)
    · exact rfl
  refine ⟨_, List.Perm.refl _,
    .cons ⟨by decide +kernel, hhost⟩ (.cons ⟨by decide +kernel, ?_⟩ .nil)⟩
  exact .cons ⟨rfl, rfl⟩ (.cons ⟨rfl, rfl⟩ .nil)

/-- The respelt context is read as the declared spellings are.  Its texts, the names of its variables
and the tree that one of them holds are read as they stand there. -/
theorem respeltContext_materialize :
    Context.shape.NamesApart ∧ Context.shape.Respelled plainContext respeltContext ∧
      ∃ c, Context.shape.materialize "context" plainContext = .ok c ∧
        Context.shape.materialize "context" respeltContext = .ok c ∧
        c.host.environment = some .production ∧ c.host.id = some "Ops_Team" ∧
        ("homeDir", .text "Pro-Duction") ∈ c.extras ∧
        ("home_dir", .object [("HOST", .null)]) ∈ c.extras := by
  have hapart : Context.shape.NamesApart := by decide +kernel
  obtain ⟨hrespelt, hdelivers⟩ := Shape.materialize_respelled.2 Context.shape hapart
  have hread := (hrespelt "context" plainContext respeltContext plainContext_respelled _).mp rfl
  refine ⟨hapart, plainContext_respelled, _, rfl, hread, rfl, ?_⟩
  obtain ⟨hhost, _, _, _, hvariables, _⟩ := (hdelivers _ _ _ hread).1 _ rfl
  obtain ⟨hid, _⟩ := (hhost _ List.mem_cons_self (by decide +kernel)).1 _ rfl
  obtain ⟨id, hsome, htext⟩ := hid _ List.mem_cons_self (by decide +kernel) nofun
  have hentries := (hvariables _ (.tail _ (.head _)) (by decide +kernel)).entries (by decide)
  refine ⟨hsome.trans (congrArg some (htext _ rfl)), ?_, ?_⟩
  · obtain ⟨⟨_, _⟩, hp, rfl, rfl⟩ := hentries.1 _ List.mem_cons_self
    exact hp
  · obtain ⟨⟨_, _⟩, hp, rfl, rfl⟩ := hentries.1 _ (.tail _ (.head _))
    exact hp

/-! ## Writing and reading again -/

theorem Kind.shape_regular :
    Kind.shape.Regular := by
  intro s a h
  cases h
  exact congrArg Except.ok (Kind.ofText_text_ofText s)

theorem Resource.shape_regular :
    Resource.shape.Regular := by
  have hweight : 1 < Number.twoTo 64 := by decide +kernel
  refine ⟨by decide +kernel, ?_⟩
  refine Fields.regular_required.mpr ⟨trivial, rfl, ?_⟩
  refine Fields.regular_required.mpr ⟨Kind.shape_regular, rfl, ?_⟩
  refine Fields.regular_withDefault.mpr ⟨trivial, trivial, fun _ h => Option.some.inj h, ?_⟩
  refine Fields.regular_withDefault.mpr ⟨Shape.regular_textSet, ⟨nofun, .nil⟩, nofun, ?_⟩
  exact Fields.regular_withDefault.mpr ⟨trivial, hweight, nofun, trivial⟩

open Stack in
theorem configurationTypes_regular :
    ∀ d ∈ configurationTypes, d.shape.Regular := by
  simp [configurationTypes, SubnetKind.shape, AddressFamily.shape, Tenancy.shape, Subnet.shape,
    SecurityGroup.shape, Network.shape, EndpointAccess.shape, CapacityType.shape, Cluster.shape,
    NodeGroup.shape, QueueRule.shape, Queue.shape, ManagedAddon.shape, ManagedAddons.shape,
    ManagedAddons.none, Chart.shape, Addons.shape, MetricFilter.shape, Alarm.shape, Dashboard.shape,
    Observability.shape, PlatformSpec.shape, ManifestEntry.shape, Manifest.shape,
    Environment.shape, Version.shape, Scope.shape, Scope.empty, Context.shape, Kind.shape,
    Kind.ofText_text_ofText, Resource.shape_regular, Shape.Regular, Shape.Admits,
    Shape.nullValue?, Shape.nat, Shape.size, Shape.entries, Number.twoTo_pos]

/-- A value of a configuration type that was read is written as a tree that can be read again.  The
value that this gives is written as the same tree, and it is the same value unless free-form trees
have lost entries that were null. -/
theorem Shape.materialize_toTree :
    ∀ d ∈ configurationTypes, ∀ (document : String) (t : Tree), t.Sound →
      ∀ a, d.shape.materialize document t = .ok a →
        ∃ a', d.shape.materialize document (d.shape.toTree a) = .ok a' ∧
          d.shape.toTree a' = d.shape.toTree a ∧ (d.shape.FreeOfNulls a → a' = a) := by
  intro d hd document t ht a h
  have hread : d.shape.read t = .ok a := mapError_eq_ok_iff.mp h
  obtain ⟨a', ha', hsame, hfree⟩ :=
    Shape.read_toTree_of_read (configurationTypes_regular d hd) ht hread
  exact ⟨a', mapError_eq_ok_iff.mpr ha', hsame, hfree⟩

/-- A queue with a rule whose pattern has a null element, but no null entry. -/
def sparseQueue : Tree :=
  .object [("name", .text "jobs"), ("retention", .nat 4), ("rules", .list [.object
    [("eventPattern", .object [("source", .list [.text "ec2", .null])]), ("name", .text "stop")]])]

/-- The queue that is read. -/
def sparseQueueValue : Stack.Queue :=
  ⟨"jobs", some 4,
    [⟨"stop", none, false, some (.object [("source", .list [.text "ec2", .null])])⟩], [], []⟩

theorem sparseQueue_toTree :
    sparseQueue.Sound ∧ Stack.Queue.shape.materialize "queue" sparseQueue = .ok sparseQueueValue ∧
      Stack.Queue.shape.FreeOfNulls sparseQueueValue ∧
      Stack.Queue.shape.materialize "queue" (Stack.Queue.shape.toTree sparseQueueValue) =
        .ok sparseQueueValue := by
  have hmem : ⟨Stack.Queue.shape⟩ ∈ configurationTypes :=
    List.mem_of_getElem? (i := 12) rfl
  have hsound : sparseQueue.Sound := by
    have hfour : (Number.integer 4).Sound := ⟨by decide, by decide⟩
    simp [sparseQueue, Tree.nat, Tree.int, hfour]
  have hfree : Stack.Queue.shape.FreeOfNulls sparseQueueValue := by
    simp [sparseQueueValue, Stack.Queue.shape, Stack.QueueRule.shape, Shape.FreeOfNulls,
      Fields.FreeOfNulls, Fields.required, Fields.optional, Fields.withDefault, Shape.entries,
      Shape.nat]
  refine ⟨hsound, rfl, hfree, ?_⟩
  obtain ⟨q, hq, _, hsame⟩ :=
    Shape.materialize_toTree _ hmem "queue" sparseQueue hsound sparseQueueValue rfl
  rw [hq, hsame hfree]

end Provision
