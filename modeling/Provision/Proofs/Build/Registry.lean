import Mathlib.Data.List.Basic
import Provision.Build.Registry
import Provision.Proofs.Entries

/-!
# Builders by the names of their kinds

Builders are registered for kinds that are given by name, and looked up for units whose kind is given
by name, too.  A known kind has many spellings; any other name stands for a kind of its own.  What is
found after a history of calls can be told from the calls alone, without the registry.

**Results.**
* `Kind.ofText_eq_iff`: which names denote one kind.
* `Kind.before_trans`, `Kind.before_or_before`: kinds are in a strict order.
* `Registry.own?_foldl`, `Registry.fallback_foldl`: what further calls leave in a registry.
* `Registry.after_verdict`: the last registration for a kind counts, else the last fallback; the
  kinds are in increasing order.
-/

namespace Provision

namespace Kind

/-! ## Names of kinds -/

/-- Whether two names denote one kind: both spell the same known one, or neither spells a known one
and they are equal. -/
def SameKind (s t : String) : Prop :=
  (∃ k ∈ known, Text.sameName k.text s = true ∧ Text.sameName k.text t = true) ∨
    (∀ k ∈ known, Text.sameName k.text s = false ∧ Text.sameName k.text t = false) ∧ s = t

instance (s t : String) : Decidable (SameKind s t) :=
  inferInstanceAs (Decidable (_ ∨ _))

/-- No name spells two known kinds. -/
theorem eq_of_sameName :
    ∀ k ∈ known, ∀ k' ∈ known, Text.sameName k.text k'.text = true → k = k' := by
  decide +kernel

theorem ofText_of_sameName
    {k : Kind}
    {s : String}
    (hk : k ∈ known)
    (hsame : Text.sameName k.text s = true) :
    ofText s = k := by
  rw [ofText]
  split
  · rename_i k' hfound
    have hmem : k' ∈ known := List.mem_of_find?_eq_some hfound
    have hfirst := List.find?_some hfound
    have hboth : Text.sameName k'.text k.text = true :=
      Text.sameName_trans hfirst (Text.sameName_symm hsame)
    exact eq_of_sameName k' hmem k hk hboth
  · rename_i hnone
    exact absurd hsame (by simpa using List.find?_eq_none.mp hnone k hk)

theorem ofText_of_unknown
    {s : String}
    (h : ∀ k ∈ known, Text.sameName k.text s = false) :
    ofText s = .custom s := by
  have hnone : (known.find? fun k => Text.sameName k.text s) = none :=
    List.find?_eq_none.mpr fun k hk => by simp [h k hk]
  rw [ofText, hnone]

theorem custom_not_mem_known
    (s : String) :
    .custom s ∉ known := by
  simp [known]

/-- A name gives the known kind that it spells or, if it spells none, a kind of its own. -/
theorem ofText_cases
    (s : String) :
    (∃ k ∈ known, Text.sameName k.text s = true ∧ ofText s = k) ∨
      (∀ k ∈ known, Text.sameName k.text s = false) ∧ ofText s = .custom s := by
  by_cases h : ∃ k ∈ known, Text.sameName k.text s = true
  · obtain ⟨k, hk, hsame⟩ := h
    exact Or.inl ⟨k, hk, hsame, ofText_of_sameName hk hsame⟩
  · have hunknown : ∀ k ∈ known, Text.sameName k.text s = false := fun k hk =>
      Bool.eq_false_iff.mpr fun hsame => h ⟨k, hk, hsame⟩
    exact Or.inr ⟨hunknown, ofText_of_unknown hunknown⟩

/-- Two names give one kind iff they denote the same. -/
theorem ofText_eq_iff
    {s t : String} :
    ofText s = ofText t ↔ SameKind s t := by
  constructor
  · intro h
    rcases ofText_cases s with ⟨k, hk, hs, hsk⟩ | ⟨hs, hsk⟩
    · rcases ofText_cases t with ⟨k', _, ht, htk⟩ | ⟨_, htk⟩
      · rw [hsk, htk] at h
        exact Or.inl ⟨k, hk, hs, h ▸ ht⟩
      · rw [hsk, htk] at h
        exact absurd (h ▸ hk) (custom_not_mem_known t)
    · rcases ofText_cases t with ⟨k', hk', _, htk⟩ | ⟨ht, htk⟩
      · rw [hsk, htk] at h
        exact absurd (h ▸ hk') (custom_not_mem_known s)
      · rw [hsk, htk] at h
        exact Or.inr ⟨fun k hk => ⟨hs k hk, ht k hk⟩, custom.inj h⟩
  · rintro (⟨k, hk, hs, ht⟩ | ⟨_, rfl⟩)
    · rw [ofText_of_sameName hk hs, ofText_of_sameName hk ht]
    · rfl

/-! ## The order of kinds -/

@[simp] theorem rank_custom
    (name : String) :
    (custom name).rank = known.length := rfl

/-- A kind is before another by its rank; kinds without a name of their own have one rank and are
ordered by their names. -/
theorem before_iff
    {a b : Kind} :
    a.before b = true ↔
      a.rank < b.rank ∨ ∃ m n, a = .custom m ∧ b = .custom n ∧ m < n := by
  unfold before
  split
  · simp
  · rename_i hnot
    rw [decide_eq_true_eq, or_iff_left]
    rintro ⟨m, n, rfl, rfl, _⟩
    exact hnot m n rfl rfl

theorem before_trans
    {a b c : Kind}
    (hab : a.before b = true)
    (hbc : b.before c = true) :
    a.before c = true := by
  rw [before_iff] at hab hbc ⊢
  rcases hab with hab | ⟨m, n, rfl, rfl, hmn⟩
  · rcases hbc with hbc | ⟨m, n, rfl, rfl, hmn⟩
    · exact Or.inl (Nat.lt_trans hab hbc)
    · rw [rank_custom] at hab ⊢
      exact Or.inl hab
  · rcases hbc with hbc | ⟨m', n', heq, rfl, hmn'⟩
    · rw [rank_custom] at hbc ⊢
      exact Or.inl hbc
    · cases heq
      exact Or.inr ⟨m, n', rfl, rfl, String.lt_trans hmn hmn'⟩

/-- A known kind stands at its rank among the known ones. -/
theorem getElem?_rank
    (k : Kind) :
    known[k.rank]? = if k.isCustom then none else some k := by
  cases k <;> rfl

theorem isCustom_iff
    {k : Kind} :
    k.isCustom = true ↔ ∃ name, k = .custom name := by
  cases k <;> simp [isCustom]

/-- Different kinds of one rank have no name of their own. -/
theorem exists_custom_of_rank_eq
    {a b : Kind}
    (hne : a ≠ b)
    (heq : a.rank = b.rank) :
    ∃ m n, a = .custom m ∧ b = .custom n := by
  have hplaces : (if a.isCustom then none else some a) = if b.isCustom then none else some b := by
    rw [← getElem?_rank, ← getElem?_rank, heq]
  by_cases ha : a.isCustom = true
  · by_cases hb : b.isCustom = true
    · obtain ⟨m, rfl⟩ := isCustom_iff.mp ha
      obtain ⟨n, rfl⟩ := isCustom_iff.mp hb
      exact ⟨m, n, rfl, rfl⟩
    · rw [if_pos ha, if_neg hb] at hplaces
      cases hplaces
  · by_cases hb : b.isCustom = true
    · rw [if_neg ha, if_pos hb] at hplaces
      cases hplaces
    · rw [if_neg ha, if_neg hb] at hplaces
      exact absurd (Option.some.inj hplaces) hne

/-- Of two different kinds one is before the other. -/
theorem before_or_before
    {a b : Kind}
    (hne : a ≠ b) :
    a.before b = true ∨ b.before a = true := by
  rw [before_iff, before_iff]
  rcases Nat.lt_trichotomy a.rank b.rank with hlt | heq | hlt
  · exact Or.inl (Or.inl hlt)
  · obtain ⟨m, n, rfl, rfl⟩ := exists_custom_of_rank_eq hne heq
    have hnames : m ≠ n := fun h => hne (h ▸ rfl)
    rcases lt_or_gt_of_ne hnames with hlt | hlt
    · exact Or.inl (Or.inr ⟨m, n, rfl, rfl, hlt⟩)
    · exact Or.inr (Or.inr ⟨n, m, rfl, rfl, hlt⟩)
  · exact Or.inr (Or.inl hlt)

end Kind

variable {β : Type}

/-- A call that adds to a registry; the kind is given by name.  Whether the registry is changed where
it stands or handed on makes no difference. -/
inductive Registration (β : Type) where
  | own (kind : String) (builder : β)
  | fallback (builder : β)
  deriving DecidableEq

namespace Registration

def add (r : Registry β) : Registration β → Registry β
  | own kind builder => r.register (.ofText kind) builder
  | fallback builder => r.withFallback builder

/-- The builder that a call registers for the kind of a name. -/
def ownFor? (s : String) : Registration β → Option β
  | own kind builder => if Kind.SameKind kind s then some builder else none
  | fallback _ => none

/-- The builder that a call registers for all other kinds. -/
def fallback? : Registration β → Option β
  | own _ _ => none
  | fallback builder => some builder

end Registration

namespace Registry

/-- The registry after some calls. -/
def after (calls : List (Registration β)) : Registry β :=
  calls.foldl Registration.add .empty

variable {r : Registry β}

/-! ## Builders of one kind -/

/-- The builder that a kind has of its own. -/
def own? (r : Registry β) (kind : Kind) : Option β :=
  (r.own.find? fun e => e.1 == kind).map (·.2)

theorem get?_eq
    (kind : Kind) :
    r.get? kind = (r.own? kind).or r.fallback := by
  rw [get?, own?]
  cases r.own.find? fun e => e.1 == kind <;> rfl

/-- A builder is found under its kind, and the builders of other kinds are found as before. -/
theorem find?_insertAt
    (kind other : Kind)
    (builder : β)
    (es : List (Kind × β)) :
    (insertAt kind builder es).find? (fun e => e.1 == other) =
      if kind = other then some (kind, builder) else es.find? fun e => e.1 == other := by
  have hcons : ∀ (k : Kind) (b : β) (rest : List (Kind × β)),
      ((k, b) :: rest).find? (fun e => e.1 == other) =
        if k = other then some (k, b) else rest.find? fun e => e.1 == other := by
    intro k b rest
    by_cases h : k = other
    · rw [if_pos h, List.find?_cons_of_pos (by simpa using h)]
    · rw [if_neg h, List.find?_cons_of_neg (by simpa using h)]
  induction es with
  | nil => exact hcons kind builder []
  | cons e rest ih =>
      obtain ⟨k, b⟩ := e
      rw [insertAt]
      split
      · rename_i hkind
        rw [hcons, hcons, hkind]
        split <;> rfl
      · rename_i hne
        split
        · rw [hcons]
        · rw [hcons, hcons, ih]
          by_cases h : kind = other
          · simp [h, h ▸ hne]
          · simp [h]

theorem own?_register
    (kind other : Kind)
    (builder : β) :
    (r.register kind builder).own? other =
      if kind = other then some builder else r.own? other := by
  rw [own?, register, find?_insertAt]
  split <;> rfl

/-- The builders of single kinds after some calls are those of the last registrations. -/
theorem own?_foldl
    (calls : List (Registration β))
    (r : Registry β)
    (s : String) :
    (calls.foldl Registration.add r).own? (.ofText s) =
      (lastSome? (Registration.ownFor? s) calls).or (r.own? (.ofText s)) := by
  induction calls generalizing r with
  | nil => rfl
  | cons call rest ih =>
      rw [List.foldl_cons, ih, lastSome?_cons, Option.or_assoc]
      congr 1
      cases call with
      | own kind builder =>
          rw [Registration.add, own?_register, Registration.ownFor?]
          simp only [Kind.ofText_eq_iff]
          split <;> rfl
      | fallback builder => rfl

theorem fallback_foldl
    (calls : List (Registration β))
    (r : Registry β) :
    (calls.foldl Registration.add r).fallback =
      (lastSome? Registration.fallback? calls).or r.fallback := by
  induction calls generalizing r with
  | nil => rfl
  | cons call rest ih =>
      rw [List.foldl_cons, ih, lastSome?_cons, Option.or_assoc]
      cases call <;> rfl

/-- The builder that is found after some calls. -/
theorem get?_after
    (calls : List (Registration β))
    (s : String) :
    (after calls).get? (.ofText s) =
      (lastSome? (Registration.ownFor? s) calls).or
        (lastSome? Registration.fallback? calls) := by
  rw [get?_eq, after, own?_foldl, fallback_foldl]
  simp [empty, own?]

theorem contains_eq
    (kind : Kind) :
    r.contains kind = (r.get? kind).isSome := by
  rw [contains, get?_eq, Option.isSome_or, own?, Option.isSome_map, List.isSome_find?]

/-! ## Kinds in order -/

theorem mem_keys_insertAt_iff
    {kind other : Kind}
    {builder : β}
    {es : List (Kind × β)} :
    other ∈ (insertAt kind builder es).map (·.1) ↔ other = kind ∨ other ∈ es.map (·.1) := by
  induction es with
  | nil => simp [insertAt]
  | cons e rest ih =>
      obtain ⟨k, b⟩ := e
      rw [insertAt]
      split
      · rename_i hkind
        simp [hkind]
      · split
        · simp
        · rw [List.map_cons, List.mem_cons, ih, List.map_cons, List.mem_cons]
          exact or_left_comm

/-- A builder that is put at the place of its kind keeps the kinds in order. -/
theorem keys_insertAt_pairwise
    (kind : Kind)
    (builder : β)
    {es : List (Kind × β)}
    (h : (es.map (·.1)).Pairwise fun a b => a.before b = true) :
    ((insertAt kind builder es).map (·.1)).Pairwise fun a b => a.before b = true := by
  induction es with
  | nil => exact List.pairwise_singleton _ _
  | cons e rest ih =>
      obtain ⟨k, b⟩ := e
      obtain ⟨hk, hrest⟩ := List.pairwise_cons.mp h
      rw [insertAt]
      split
      · rename_i hkind
        rw [← hkind]
        exact h
      · rename_i hne
        split
        · rename_i hbefore
          refine List.pairwise_cons.mpr ⟨fun other hother => ?_, h⟩
          rcases List.mem_cons.mp hother with rfl | hother
          · exact hbefore
          · exact Kind.before_trans hbefore (hk other hother)
        · rename_i hnot
          refine List.pairwise_cons.mpr ⟨fun other hother => ?_, ih hrest⟩
          rcases mem_keys_insertAt_iff.mp hother with rfl | hother
          · exact (Kind.before_or_before hne).resolve_right hnot
          · exact hk other hother

theorem kinds_foldl_pairwise
    (calls : List (Registration β))
    (h : r.kinds.Pairwise fun a b => a.before b = true) :
    (calls.foldl Registration.add r).kinds.Pairwise fun a b => a.before b = true := by
  induction calls generalizing r with
  | nil => exact h
  | cons call rest ih =>
      cases call with
      | own kind builder => exact ih (keys_insertAt_pairwise _ _ h)
      | fallback builder => exact ih h

/-- The kinds with a builder of their own are those that builders were registered for. -/
theorem mem_kinds_foldl_iff
    {calls : List (Registration β)}
    {kind : Kind} :
    kind ∈ (calls.foldl Registration.add r).kinds ↔
      (∃ s builder, .own s builder ∈ calls ∧ kind = .ofText s) ∨ kind ∈ r.kinds := by
  induction calls generalizing r with
  | nil => simp
  | cons call rest ih =>
      rw [List.foldl_cons, ih]
      cases call with
      | own s builder =>
          have hkinds : kind ∈ (r.register (.ofText s) builder).kinds ↔
              kind = .ofText s ∨ kind ∈ r.kinds := mem_keys_insertAt_iff
          rw [Registration.add, hkinds]
          constructor
          · rintro (⟨s', builder', hmem, rfl⟩ | rfl | hold)
            · exact Or.inl ⟨s', builder', List.mem_cons_of_mem _ hmem, rfl⟩
            · exact Or.inl ⟨s, builder, List.mem_cons_self, rfl⟩
            · exact Or.inr hold
          · rintro (⟨s', builder', hmem, rfl⟩ | hold)
            · rcases List.mem_cons.mp hmem with heq | hmem
              · cases heq
                exact Or.inr (Or.inl rfl)
              · exact Or.inl ⟨s', builder', hmem, rfl⟩
            · exact Or.inr (Or.inr hold)
      | fallback builder => simp [Registration.add, withFallback, kinds]

/-- After any history of calls the builder of a unit is the one that was last registered under a name
for its kind, or else the last fallback; if there is neither, the error names the unit and its kind.
Two names give one kind iff they denote the same.  Whether a kind can be built agrees with what is
found; the kinds with a builder of their own are those that builders were registered for, in
increasing order and counted once each; and the text of a kind gives this kind again. -/
theorem after_verdict
    (calls : List (Registration β)) :
    (∀ (u : Resource) (s : String), u.kind = .ofText s →
      (after calls).require u =
        match (lastSome? (Registration.ownFor? s) calls).or
          (lastSome? Registration.fallback? calls) with
        | some builder => .ok builder
        | none => .error (.builderNotFound u.id u.kind.text)) ∧
      (∀ s t, Kind.ofText s = Kind.ofText t ↔ Kind.SameKind s t) ∧
      (∀ kind, (after calls).contains kind = ((after calls).get? kind).isSome) ∧
      ((after calls).kinds.Pairwise fun a b => a.before b = true) ∧
      (∀ kind, kind ∈ (after calls).kinds ↔
        ∃ s builder, .own s builder ∈ calls ∧ kind = .ofText s) ∧
      (after calls).size = (after calls).kinds.length ∧
      ∀ s, Kind.ofText (Kind.ofText s).text = Kind.ofText s := by
  refine ⟨fun u s hkind => ?_, fun s t => Kind.ofText_eq_iff, contains_eq, ?_, fun kind => ?_, ?_,
    Kind.ofText_text_ofText⟩
  · have hget := get?_after calls s
    rw [← hkind] at hget
    exact hget ▸ rfl
  · exact kinds_foldl_pairwise calls List.Pairwise.nil
  · rw [after, mem_kinds_foldl_iff]
    exact or_iff_left List.not_mem_nil
  · rw [size, kinds, List.length_map]

/-- Calls for one known kind in two spellings, and for two kinds whose names differ in case only. -/
def spelledCalls : List (Registration Nat) :=
  [.own "Net-Work" 1, .own "dns" 2, .fallback 3, .own "NETWORK" 4, .own "Dns" 5]

/-- The later spelling of a known kind counts, a name that differs in case from two others falls to
the fallback, and without a fallback the error names the known kind. -/
theorem spelled_after_verdict :
    (after spelledCalls).require (Resource.ofKind "vpc" (.ofText "net_work")) = .ok 4 ∧
      (after spelledCalls).require (Resource.ofKind "zone" (.ofText "DNS")) = .ok 3 ∧
      (after (spelledCalls.take 2)).require (Resource.ofKind "disk" (.ofText "STORAGE")) =
        .error (.builderNotFound "disk" "storage") := by
  have hnetwork : (lastSome? (Registration.ownFor? "net_work") spelledCalls).or
      (lastSome? Registration.fallback? spelledCalls) = some 4 := by decide +kernel
  have hdns : (lastSome? (Registration.ownFor? "DNS") spelledCalls).or
      (lastSome? Registration.fallback? spelledCalls) = some 3 := by decide +kernel
  have hstorage : (lastSome? (Registration.ownFor? "STORAGE") (spelledCalls.take 2)).or
      (lastSome? Registration.fallback? (spelledCalls.take 2)) = none := by decide +kernel
  have hkind : Kind.ofText "STORAGE" = .storage := by decide +kernel
  refine ⟨?_, ?_, ?_⟩
  · rw [(after_verdict spelledCalls).1 _ "net_work" rfl, hnetwork]
  · rw [(after_verdict spelledCalls).1 _ "DNS" rfl, hdns]
  · rw [(after_verdict (spelledCalls.take 2)).1 _ "STORAGE" rfl, hstorage, hkind]
    rfl

end Registry
end Provision
