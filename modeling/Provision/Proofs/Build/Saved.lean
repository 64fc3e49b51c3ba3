import Provision.Build.Saved
import Provision.Proofs.Json.Decoder
import Provision.Proofs.Time.Instant

/-!
# Reports that are loaded again

A report is saved as one object, and each of its parts is decoded from what it was written to: a kind
from its text, which names it up to spelling; a failure from one object that holds the unit beside the
entries that belong to the reason; outputs from trees with integers only.  The whole nests four levels
deeper than the values of the outputs do.

**Results.**
* `Failure.decodes`: a failure keeps its unit and its reason.
* `Report.load_save`: a saved report is loaded again, up to how its instants are written.
-/

namespace Provision

open Json

namespace Tree

theorem integral_nat
    {n : Nat}
    (h : n < Number.twoTo 64) :
    (Tree.nat n).Integral := by
  refine .integer ⟨?_, ?_⟩
  · exact Int.le_trans (Int.neg_nonpos_of_nonneg (Int.natCast_nonneg _)) (Int.natCast_nonneg _)
  · omega

section OfOption

variable {α : Type} {f : α → Tree} {a? : Option α}

theorem integral_ofOption
    (h : ∀ a ∈ a?, (f a).Integral) :
    (Tree.ofOption f a?).Integral := by
  cases a? with
  | none => exact .null
  | some a => exact h a rfl

theorem depth_ofOption_le
    {n : Nat}
    (h : ∀ a ∈ a?, (f a).depth ≤ n) :
    (Tree.ofOption f a?).depth ≤ n := by
  cases a? with
  | none => exact Nat.zero_le n
  | some a => exact h a rfl

end OfOption

end Tree

namespace BuildState

theorem decodes
    (s : BuildState) :
    Decodes (Decoder.choice options) (.text s.label) s := by
  refine decodes_choice ?_
  cases s <;> decide

end BuildState

namespace Overflow

/-- A notice with numbers that fit a word. -/
structure IsSized (o : Overflow) : Prop where
  weight : o.weight < Number.twoTo 64
  ceiling : o.ceiling < Number.twoTo 64
  partition : o.partition < Number.twoTo 64

variable {o : Overflow}

theorem decodes
    (h : o.IsSized) :
    Decodes decoder o.toObject o := by
  refine bind_eq_ok_iff.mpr ⟨(o.unit, o.weight, o.ceiling, o.partition, ()), ?_, rfl⟩
  refine Slots.Filled.decodes ?_ (by decide) _
  exact .cons (decodes_text _) (.cons (decodes_size h.weight) (.cons (decodes_size h.ceiling)
    (.cons (decodes_size h.partition) .nil)))

theorem depth_toObject
    (o : Overflow) :
    o.toObject.depth ≤ 1 :=
  Nat.le_refl 1

theorem integral
    (h : o.IsSized) :
    o.toObject.Integral := by
  simp [toObject, Tree.integral_nat, h.weight, h.ceiling, h.partition]

end Overflow

namespace Handle

/-- A handle whose kind was read from a text and whose outputs have integers only and nest at most 123
deep, which leaves room for the levels around them. -/
structure IsPlain (h : Handle) : Prop where
  kind : ∃ s, h.kind = Kind.ofText s
  inOrder : (Tree.object h.outputs).InOrder
  integral : (Tree.object h.outputs).Integral
  depth : ∀ e ∈ h.outputs, e.2.depth + 4 ≤ nestingLimit

variable {h : Handle}

theorem decodes
    (hplain : h.IsPlain) :
    Decodes decoder h.toObject h := by
  obtain ⟨s, hkind⟩ := hplain.kind
  have htext : Kind.ofText h.kind.text = h.kind := by rw [hkind, Kind.ofText_text_ofText]
  refine bind_eq_ok_iff.mpr ⟨(h.unitId, h.kind.text, h.identifier, h.outputs, ()), ?_, ?_⟩
  · refine Slots.Filled.decodes ?_ (by decide) _
    exact .cons (decodes_text _) (.cons (decodes_text _) (.cons (decodes_text _)
      (.cons (decodes_treeEntries hplain.inOrder) .nil)))
  · dsimp only
    rw [htext]
    rfl

theorem integral
    (hplain : h.IsPlain) :
    h.toObject.Integral := by
  simpa [toObject] using hplain.integral

/-- A handle leaves room for the list it stands in and for the report. -/
theorem depth_toObject
    (hplain : h.IsPlain) :
    h.toObject.depth + 2 ≤ nestingLimit := by
  have houtputs : (Tree.object h.outputs).depth ≤ 124 :=
    Tree.depth_object_le_iff.mpr fun e he => Nat.le_of_add_le_add_right (hplain.depth e he)
  have hobject : h.toObject.depth ≤ 125 := by
    refine Tree.depth_object_le_iff.mpr ?_
    simp only [List.forall_mem_cons]
    exact ⟨Nat.zero_le _, Nat.zero_le _, Nat.zero_le _, houtputs, List.forall_mem_nil _⟩
  exact Nat.add_le_add_right hobject 2

end Handle

namespace Failure

/-- A failure keeps its unit and its reason, which are written into one object. -/
theorem decodes
    (f : Failure) :
    Decodes decoder f.toObject f := by
  obtain ⟨unit, reason⟩ := f
  cases reason with
  | failed message => rfl
  | panicked message => rfl
  | cancelled dependency => rfl

theorem integral
    (f : Failure) :
    f.toObject.Integral := by
  obtain ⟨unit, reason⟩ := f
  cases reason <;> simp [toObject]

theorem depth_toObject
    (f : Failure) :
    f.toObject.depth ≤ 1 := by
  obtain ⟨unit, reason⟩ := f
  cases reason <;> exact Nat.le_refl 1

end Failure

theorem Instant.decodes
    {t : Instant}
    (h : t.IsValid) :
    Decodes Instant.decoder (.text t.text) t.asWritten := by
  rw [Decodes, Draft.ofTree, Instant.decoder]
  exact mapError_eq_ok_iff.mpr (Instant.ofText_text h)

namespace Report

/-- A report with numbers that fit a word, plain handles and instants of years that are counted. -/
structure IsPlain (r : Report) : Prop where
  partitions : r.partitions < Number.twoTo 64
  overflows : ∀ o ∈ r.overflows, o.IsSized
  succeeded : ∀ h ∈ r.succeeded, h.IsPlain
  startedAt : ∀ t ∈ r.startedAt, t.IsValid
  completedAt : ∀ t ∈ r.completedAt, t.IsValid

/-- The report with its instants as they are written. -/
def asWritten (r : Report) : Report :=
  { r with
    startedAt := r.startedAt.map Instant.asWritten
    completedAt := r.completedAt.map Instant.asWritten }

variable {r : Report}

theorem decodes
    (h : r.IsPlain) :
    Decodes decoder r.toObject r.asWritten := by
  refine bind_eq_ok_iff.mpr ⟨(r.buildId, r.state, r.order, r.partitions, r.overflows, r.succeeded,
    r.failed, r.startedAt.map Instant.asWritten, r.completedAt.map Instant.asWritten, ()), ?_, rfl⟩
  refine Slots.Filled.decodes ?_ (by decide) _
  refine .cons (decodes_text _) (.cons (BuildState.decodes _) ?_)
  refine .cons (decodes_list fun id _ => decodes_text id) (.cons (decodes_size h.partitions) ?_)
  refine .cons (decodes_list fun o ho => Overflow.decodes (h.overflows o ho)) ?_
  refine .cons (decodes_list fun k hk => Handle.decodes (h.succeeded k hk)) ?_
  refine .cons (decodes_list fun f _ => Failure.decodes f) ?_
  refine .cons (decodes_optional fun t ht => Instant.decodes (h.startedAt t ht)) ?_
  exact .cons (decodes_optional fun t ht => Instant.decodes (h.completedAt t ht)) .nil

theorem integral
    (h : r.IsPlain) :
    r.toObject.Integral := by
  refine .object ?_
  simp only [List.forall_mem_cons]
  refine ⟨.text _, .text _, .list ?_, Tree.integral_nat h.partitions, .list ?_, .list ?_, .list ?_,
    ?_, ?_, List.forall_mem_nil _⟩
  · exact List.forall_mem_map.mpr fun id _ => .text id
  · exact List.forall_mem_map.mpr fun o ho => Overflow.integral (h.overflows o ho)
  · exact List.forall_mem_map.mpr fun k hk => Handle.integral (h.succeeded k hk)
  · exact List.forall_mem_map.mpr fun f _ => f.integral
  · exact Tree.integral_ofOption fun t _ => .text t.text
  · exact Tree.integral_ofOption fun t _ => .text t.text

theorem depth_toObject
    (h : r.IsPlain) :
    r.toObject.depth ≤ nestingLimit := by
  refine Tree.depth_object_le_iff.mpr ?_
  simp only [List.forall_mem_cons]
  refine ⟨Nat.zero_le _, Nat.zero_le _, Tree.depth_list_le_iff.mpr ?_, Nat.zero_le _,
    Tree.depth_list_le_iff.mpr ?_, Tree.depth_list_le_iff.mpr ?_, Tree.depth_list_le_iff.mpr ?_,
    ?_, ?_, List.forall_mem_nil _⟩
  · exact List.forall_mem_map.mpr fun id _ => Nat.zero_le _
  · exact List.forall_mem_map.mpr fun o _ => Nat.le_trans o.depth_toObject (by decide)
  · exact List.forall_mem_map.mpr fun k hk =>
      Nat.le_of_add_le_add_right (Handle.depth_toObject (h.succeeded k hk))
  · exact List.forall_mem_map.mpr fun f _ => Nat.le_trans f.depth_toObject (by decide)
  · exact Tree.depth_ofOption_le fun t _ => Nat.zero_le _
  · exact Tree.depth_ofOption_le fun t _ => Nat.zero_le _

/-- A saved report is loaded again: every handle, every notice, and every failure with its unit, the
kind of its reason and the text that belongs to it; only a leap second within a minute is loaded as
the second that it was written as. -/
theorem load_save
    (h : r.IsPlain) :
    load r.save = .ok r.asWritten :=
  mapError_eq_ok_iff.mpr (decodeText_pretty (decodes h) (integral h) (depth_toObject h))

/-- A report with all kinds of failures, a notice, nested outputs, and a leap second just before the
year 0. -/
def mixed : Report where
  buildId := "b-1"
  state := .failed
  order := ["vpc", "cdn", "db", "api", "web"]
  partitions := 2
  overflows := [⟨"db", 9, 4, 1⟩]
  succeeded := [⟨"vpc", Kind.ofText "NetWork", "vpc-1",
      [("tags", .object []), ("zones", .list [.int (-3), .object [("a", .bool true)]])]⟩,
    ⟨"cdn", Kind.ofText "Edge-Cache", "", []⟩]
  failed := [⟨"db", .failed "quota \"exceeded\"\n"⟩, ⟨"api", .panicked "reason"⟩,
    ⟨"web", .cancelled "api"⟩]
  startedAt := some ⟨-719529, 86399, 1500000000⟩
  completedAt := none

theorem mixed_isPlain :
    mixed.IsPlain where
  partitions := by decide +kernel
  overflows := List.forall_mem_singleton.mpr
    ⟨by decide +kernel, by decide +kernel, by decide +kernel⟩
  succeeded := by
    refine List.forall_mem_cons.mpr ⟨⟨⟨"NetWork", rfl⟩, ?_, ?_, ?_⟩,
      List.forall_mem_singleton.mpr ⟨⟨"Edge-Cache", rfl⟩, ?_, ?_, ?_⟩⟩
    · have hinner : Entries.Ordered [("a", Tree.bool true)] := by decide
      refine .object (by decide) ?_
      simp [Tree.int, hinner]
    · simp [Tree.int, Number.Sound]
      decide +kernel
    · decide +kernel
    · simp
    · simp
    · simp
  startedAt := by
    rintro t ⟨⟩
    exact ⟨by decide +kernel, by decide, by decide⟩
  completedAt := nofun

theorem mixed_load_save :
    mixed.IsPlain ∧ load mixed.save = .ok mixed :=
  ⟨mixed_isPlain, load_save mixed_isPlain⟩

end Report
end Provision
