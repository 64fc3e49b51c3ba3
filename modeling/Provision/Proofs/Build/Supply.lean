import Provision.Proofs.Build.Ledger
import Provision.Proofs.Entries
import Provision.Proofs.Sorted

/-!
# The handles that builders receive

A builder is called when all dependencies of its unit have handles, and receives these.  A handle
that was recorded is never replaced, since no unit is called twice, so at any later time the handles
that a call received are still those of the dependencies of its unit.

**Results.**
* `Run.find?_dependenciesOf`, `Run.keys_dependenciesOf`: the handles given to a builder, by name and
  in order.
* `Executor.Reachable.supplied`: every call has the handles of the dependencies of its unit.
-/

namespace Provision

variable {β σ : Type}

/-- A handle that is returned for a unit carries the name of the unit. -/
def Names (c : Call β) (outcome : Outcome) : Prop :=
  ∀ h, outcome.handle? = some h → h.unitId = c.unit.id

namespace Run

/-- The handles added for a list of names stand in front of those that were there. -/
theorem find?_foldl_add
    {hs : Handles}
    (hnamed : ∀ id h, Entries.find? id hs = some h → h.unitId = id)
    (ds : List String)
    (base : Handles)
    (id : String) :
    Entries.find? id ((ds.filterMap fun d => Entries.find? d hs).foldl Handles.add base) =
      (if id ∈ ds then Entries.find? id hs else none).or (Entries.find? id base) := by
  induction ds generalizing base with
  | nil => simp
  | cons d rest ih =>
      cases hd : Entries.find? d hs with
      | none =>
          simp only [List.filterMap_cons, hd, ih]
          by_cases hid : id = d
          · subst hid
            simp [hd]
          · simp [hid]
      | some h =>
          simp only [List.filterMap_cons, hd, List.foldl_cons, ih, Handles.add, hnamed d h hd]
          by_cases hid : id = d
          · subst hid
            rw [Entries.find?_insert_self, hd, if_pos List.mem_cons_self]
            split <;> rfl
          · rw [Entries.find?_insert_of_ne _ _ hid]
            simp [hid]

/-- A builder is given the handles of the dependencies and nothing else. -/
theorem find?_dependenciesOf
    {run : Run β}
    (hnamed : ∀ id h, Entries.find? id run.handles = some h → h.unitId = id)
    (u : Resource)
    (id : String) :
    Entries.find? id (run.dependenciesOf u) =
      if id ∈ u.dependsOn then Entries.find? id run.handles else none := by
  rw [dependenciesOf, find?_foldl_add hnamed, Entries.find?_nil, Option.or_none]

theorem dependenciesOf_ordered
    (run : Run β)
    (u : Resource) :
    Entries.Ordered (run.dependenciesOf u) := by
  have hfold : ∀ (hs : List Handle) (base : Handles), Entries.Ordered base →
      Entries.Ordered (hs.foldl Handles.add base) := by
    intro hs
    induction hs with
    | nil => exact fun _ hbase => hbase
    | cons h rest ih => exact fun base hbase => ih _ (hbase.insert h.unitId h)
  exact hfold _ [] Entries.ordered_nil

/-- When all dependencies have handles, a builder is given them in the order of their names. -/
theorem keys_dependenciesOf
    {run : Run β}
    (hnamed : ∀ id h, Entries.find? id run.handles = some h → h.unitId = id)
    {u : Resource}
    (hready : ∀ d ∈ u.dependsOn, run.hasHandle d = true) :
    Entries.keys (run.dependenciesOf u) = Sorted.texts u.dependsOn := by
  have hmem : ∀ id, id ∈ Entries.keys (run.dependenciesOf u) ↔ id ∈ Sorted.texts u.dependsOn := by
    intro id
    rw [Sorted.mem_texts_iff, ← not_iff_not, ← Entries.find?_eq_none_iff,
      find?_dependenciesOf hnamed]
    by_cases hid : id ∈ u.dependsOn
    · obtain ⟨h, hfound⟩ := hasHandle_iff.mp (hready id hid)
      simp [hid, hfound]
    · simp [hid]
  have hkeys : (Entries.keys (run.dependenciesOf u)).Pairwise (· < ·) :=
    List.pairwise_map.mpr (run.dependenciesOf_ordered u)
  have htexts := Sorted.texts_pairwise u.dependsOn
  have hne : ∀ a b : String, a < b → a ≠ b := fun a b hlt heq => String.lt_irrefl b (heq ▸ hlt)
  have hperm := (List.perm_ext_iff_of_nodup (hkeys.imp (hne _ _)) (htexts.imp (hne _ _))).mpr hmem
  refine hperm.eq_of_pairwise ?_ hkeys htexts
  intro a b _ _ hab hba
  exact absurd (String.lt_trans hab hba) (String.lt_irrefl a)

theorem dependenciesOf_congr
    {run run' : Run β}
    {u : Resource}
    (h : ∀ d ∈ u.dependsOn, Entries.find? d run'.handles = Entries.find? d run.handles) :
    run'.dependenciesOf u = run.dependenciesOf u := by
  rw [dependenciesOf, dependenciesOf, List.filterMap_congr h]

/-- A call is made in a run. -/
structure Starts
    (registry : Registry β)
    (limit : Option Nat)
    (run : Run β)
    (c : Call β) : Prop where
  pending : c.unit ∈ run.pending
  ready : ∀ d ∈ c.unit.dependsOn, run.hasHandle d = true
  supplied : c.dependencies = run.dependenciesOf c.unit
  named : registry.require c.unit = .ok c.builder
  room : run.hasCapacity limit = true

namespace Move

variable
  {registry : Registry β}
  {limit : Option Nat}
  {may : Call β → Outcome → Prop}
  {run run' : Run β}

theorem pending_subset
    (h : run.Move registry limit may run') :
    run'.pending ⊆ run.pending := by
  cases h with
  | cancel => exact List.eraseIdx_subset
  | launch => exact List.eraseIdx_subset
  | pass => exact List.Subset.refl _
  | join => exact List.Subset.refl _
  | abandon => exact (List.tail_sublist _).subset

theorem returned_subset
    (h : run.Move registry limit may run') :
    run.returned ⊆ run'.returned := by
  cases h with
  | join => exact List.subset_append_left _ _
  | _ => exact List.Subset.refl _

theorem failed_subset
    (h : run.Move registry limit may run') :
    run.failed ⊆ run'.failed := by
  cases h with
  | launch => exact List.Subset.refl _
  | pass => exact List.Subset.refl _
  | _ => exact List.subset_append_left _ _

/-- A call that is there after a move was there before, or was made by the move. -/
theorem mem_calls
    (h : run.Move registry limit may run')
    {c : Call β}
    (hc : c ∈ run'.calls) :
    c ∈ run.calls ∨ run.Starts registry limit c ∧ run'.handles = run.handles := by
  cases h with
  | launch looked ready room named =>
      rcases List.mem_append.mp hc with hc | hc
      · exact Or.inl hc
      · rw [List.mem_singleton.mp hc]
        exact Or.inr ⟨⟨List.mem_of_getElem? looked, ready, rfl, named, room⟩, rfl⟩
  | _ => exact Or.inl hc

end Move

namespace Ledger

variable {g : Graph} {p : Plan} {may : Call β → Outcome → Prop} {k : Nat} {run run' : Run β}

/-- If more calls have ended, there are the same handles and maybe more. -/
theorem find?_mono
    (h : run.Ledger g p may k)
    (h' : run'.Ledger g p may k)
    (hreturned : run.returned ⊆ run'.returned)
    {id : String}
    {handle : Handle}
    (hfound : Entries.find? id run.handles = some handle) :
    Entries.find? id run'.handles = some handle := by
  obtain ⟨c, hid, hc⟩ := (h.handles id handle).mp hfound
  exact (h'.handles id handle).mpr ⟨c, hid, hreturned hc⟩

theorem hasHandle_mono
    (h : run.Ledger g p may k)
    (h' : run'.Ledger g p may k)
    (hreturned : run.returned ⊆ run'.returned)
    {id : String}
    (hhandle : run.hasHandle id = true) :
    run'.hasHandle id = true := by
  obtain ⟨handle, hfound⟩ := hasHandle_iff.mp hhandle
  exact hasHandle_iff.mpr ⟨handle, h.find?_mono h' hreturned hfound⟩

/-- Handles are kept under the names that they carry. -/
theorem unitId_of_find?
    (h : run.Ledger g p may k)
    (hnames : ∀ c outcome, may c outcome → Names c outcome)
    (id : String)
    (handle : Handle)
    (hfound : Entries.find? id run.handles = some handle) :
    handle.unitId = id := by
  obtain ⟨c, rfl, hc⟩ := (h.handles id handle).mp hfound
  exact hnames c _ (h.ends _ hc) handle rfl

end Ledger

/-- Every call has the handles of the dependencies of its unit. -/
def Supplied (run : Run β) : Prop :=
  ∀ c ∈ run.calls, (∀ d ∈ c.unit.dependsOn, run.hasHandle d = true) ∧
    c.dependencies = run.dependenciesOf c.unit

theorem Supplied.move
    {g : Graph}
    {p : Plan}
    {may : Call β → Outcome → Prop}
    {k : Nat}
    {run run' : Run β}
    (h : run.Supplied)
    (hledger : run.Ledger g p may k)
    (hledger' : run'.Ledger g p may k)
    {registry : Registry β}
    {limit : Option Nat}
    (hmove : run.Move registry limit may run') :
    run'.Supplied := by
  intro c hc
  have hready : (∀ d ∈ c.unit.dependsOn, run.hasHandle d = true) ∧
      c.dependencies = run.dependenciesOf c.unit := by
    rcases hmove.mem_calls hc with hold | ⟨hstarts, _⟩
    · exact h c hold
    · exact ⟨hstarts.ready, hstarts.supplied⟩
  refine ⟨?_, ?_⟩
  · intro d hd
    exact hledger.hasHandle_mono hledger' hmove.returned_subset (hready.1 d hd)
  · refine hready.2.trans (dependenciesOf_congr ?_).symm
    intro d hd
    obtain ⟨handle, hfound⟩ := hasHandle_iff.mp (hready.1 d hd)
    rw [hfound]
    exact hledger.find?_mono hledger' hmove.returned_subset hfound

end Run

namespace Executor.Reachable

variable
  {e : Executor β σ}
  {g : Graph}
  {p : Plan}
  {w : σ}
  {may : Call β → Outcome → Prop}
  {k : Nat}
  {s : Run β × σ}

theorem supplied
    (hserves : e.Serves g p may)
    (h : e.Reachable g p w k s) :
    s.1.Supplied := by
  refine h.invariant hserves (I := fun _ run => run.Supplied) ?_ ?_ ?_
  · intro c hc
    exact absurd hc List.not_mem_nil
  · intro k s part _ _ _ _ hsupplied
    exact hsupplied
  · intro k s run' hreach hmove hsupplied
    exact hsupplied.move (hreach.ledger hserves) (hreach.ledger_move hserves hmove) hmove

/-- The handles that a call received are the recorded ones of its dependencies. -/
theorem find?_dependencies
    (hserves : e.Serves g p may)
    (hnames : ∀ c outcome, may c outcome → Names c outcome)
    (h : e.Reachable g p w k s) :
    ∀ c ∈ s.1.calls, ∀ id, Entries.find? id c.dependencies =
      if id ∈ c.unit.dependsOn then Entries.find? id s.1.handles else none := by
  intro c hc id
  rw [(h.supplied hserves c hc).2]
  exact Run.find?_dependenciesOf ((h.ledger hserves).unitId_of_find? hnames) c.unit id

end Executor.Reachable
end Provision
