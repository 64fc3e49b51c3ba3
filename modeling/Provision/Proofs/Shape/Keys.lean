import Provision.Proofs.Entries
import Provision.Shape.Keys

/-!
# Names and the keys that stand for them

Names that differ in more than their spelling are told apart by every spelling: a key stands for the
name that it spells, if there is one.  The keys of an object are renamed to the fields they stand
for; this fails exactly if two of them stand for one field.

**Results.**
* `Text.findName?_eq_some_iff`: the name that a spelling stands for.
* `foldKeys_eq_ok_iff`: when keys are renamed, and what comes out.
* `find?_foldKeys_iff`: the value of a field is that of the key that stands for it.
* `foldKeys_eq_error`: the keys that are reported otherwise.
-/

namespace Provision
namespace Text

/-- No two of the names are the same up to spelling. -/
def SpeltApart (names : List String) : Prop :=
  names.Pairwise fun a b => sameName a b = false

instance decideSpeltApart (names : List String) : Decidable (SpeltApart names) :=
  inferInstanceAs (Decidable (names.Pairwise fun a b => sameName a b = false))

theorem sameName_comm
    (a b : String) :
    sameName a b = sameName b a := by
  rw [Bool.eq_iff_iff, sameName_iff, sameName_iff, eq_comm]

theorem sameName_congr
    {a b : String}
    (h : sameName a b = true)
    (c : String) :
    sameName c a = sameName c b := by
  rw [Bool.eq_iff_iff, sameName_iff, sameName_iff, sameName_iff.mp h]

theorem SpeltApart.eq_of_sameName
    {names : List String}
    (h : SpeltApart names)
    {a b : String}
    (ha : a ∈ names)
    (hb : b ∈ names)
    (hab : sameName a b = true) :
    a = b := by
  induction names with
  | nil => cases ha
  | cons n rest ih =>
      obtain ⟨hapart, hrest⟩ := List.pairwise_cons.mp h
      rcases List.mem_cons.mp ha with rfl | harest
      · rcases List.mem_cons.mp hb with rfl | hbrest
        · rfl
        · rw [hapart b hbrest] at hab
          cases hab
      · rcases List.mem_cons.mp hb with rfl | hbrest
        · rw [sameName_comm, hapart a harest] at hab
          cases hab
        · exact ih hrest harest hbrest

/-- The name that a spelling stands for is one of the names, spelt in another way. -/
theorem findName?_spells
    {names : List String}
    {spelling name : String}
    (h : findName? names spelling = some name) :
    name ∈ names ∧ sameName name spelling = true := by
  rw [findName?] at h
  cases hexact : names.find? (· == spelling) with
  | some n =>
      rw [hexact] at h
      cases h
      have heq : name = spelling := by simpa using List.find?_some hexact
      exact ⟨List.mem_of_find?_eq_some hexact, heq ▸ sameName_refl name⟩
  | none =>
      rw [hexact] at h
      dsimp only at h
      exact ⟨List.mem_of_find?_eq_some h, by simpa using List.find?_some h⟩

theorem findName?_eq_none_iff
    {names : List String}
    {spelling : String} :
    findName? names spelling = none ↔ ∀ n ∈ names, sameName n spelling = false := by
  constructor
  · intro h n hn
    rw [findName?] at h
    cases hexact : names.find? (· == spelling) with
    | some n => rw [hexact] at h; cases h
    | none =>
        rw [hexact] at h
        exact Bool.eq_false_iff.mpr (List.find?_eq_none.mp h n hn)
  · intro h
    cases hname : findName? names spelling with
    | none => rfl
    | some n =>
        obtain ⟨hn, hsame⟩ := findName?_spells hname
        rw [h n hn] at hsame
        cases hsame

theorem findName?_of_mem
    {names : List String}
    {name : String}
    (h : name ∈ names) :
    findName? names name = some name := by
  rw [findName?]
  cases hexact : names.find? (· == name) with
  | some n =>
      have heq : n = name := by simpa using List.find?_some hexact
      rw [heq]
  | none => exact absurd (List.find?_eq_none.mp hexact name h) (by simp)

/-- A spelling stands for the name that it spells. -/
theorem findName?_eq_some_iff
    {names : List String}
    (h : SpeltApart names)
    {spelling name : String} :
    findName? names spelling = some name ↔ name ∈ names ∧ sameName name spelling = true := by
  constructor
  · exact findName?_spells
  · rintro ⟨hmem, hsame⟩
    cases hname : findName? names spelling with
    | none =>
        rw [findName?_eq_none_iff.mp hname name hmem] at hsame
        cases hsame
    | some n =>
        obtain ⟨hn, hn'⟩ := findName?_spells hname
        have hboth : sameName n name = true := sameName_trans hn' (sameName_symm hsame)
        rw [h.eq_of_sameName hn hmem hboth]

/-- Two spellings of one name stand for the same name. -/
theorem findName?_congr
    {names : List String}
    (h : SpeltApart names)
    {a b : String}
    (hab : sameName a b = true) :
    findName? names a = findName? names b := by
  refine Option.ext fun n => ?_
  rw [findName?_eq_some_iff h, findName?_eq_some_iff h, sameName_congr hab]

end Text

open Text (findName?)

/-- The fields that the keys of entries stand for. -/
def fieldsGiven {α : Type} (names : List String) (es : List (String × α)) : List String :=
  es.filterMap fun e => findName? names e.1

theorem fieldsGiven_cons_of_none
    {α : Type}
    {names : List String}
    {e : String × α}
    (h : findName? names e.1 = none)
    (es : List (String × α)) :
    fieldsGiven names (e :: es) = fieldsGiven names es :=
  List.filterMap_cons_none h

theorem fieldsGiven_cons_of_some
    {α : Type}
    {names : List String}
    {e : String × α}
    {field : String}
    (h : findName? names e.1 = some field)
    (es : List (String × α)) :
    fieldsGiven names (e :: es) = field :: fieldsGiven names es :=
  List.filterMap_cons_some h

/-- An entry under the field that its key stands for. -/
def renamed {α : Type} (names : List String) (e : String × α) : String × α :=
  ((findName? names e.1).getD e.1, e.2)

theorem renamed_key_eq_iff
    {α : Type}
    {names : List String}
    {name : String}
    (h : name ∈ names)
    (e : String × α) :
    (renamed names e).1 = name ↔ findName? names e.1 = some name := by
  cases hfield : findName? names e.1 with
  | some field => simp [renamed, hfield]
  | none =>
      simp only [renamed, hfield, Option.getD_none]
      constructor
      · intro heq
        rw [heq, Text.findName?_of_mem h] at hfield
        cases hfield
      · intro hnone
        cases hnone

/-- Keys that are fields stand for themselves. -/
theorem fieldsGiven_of_subset
    {α : Type}
    {names : List String}
    {es : List (String × α)}
    (h : ∀ e ∈ es, e.1 ∈ names) :
    fieldsGiven names es = es.map (·.1) := by
  rw [fieldsGiven, ← List.filterMap_eq_map]
  exact List.filterMap_congr fun e he => Text.findName?_of_mem (h e he)

theorem map_renamed_of_subset
    {α : Type}
    {names : List String}
    {es : List (String × α)}
    (h : ∀ e ∈ es, e.1 ∈ names) :
    es.map (renamed names) = es := by
  have hsame : ∀ e ∈ es, renamed names e = e := fun e he => by
    rw [renamed, Text.findName?_of_mem (h e he), Option.getD_some]
  rw [List.map_congr_left hsame, List.map_id']

theorem foldKeysFrom_eq_ok_iff
    {names : List String}
    {given : List (String × String)}
    {folded result : Entries Tree}
    {es : List (String × Tree)} :
    foldKeysFrom names given folded es = .ok result ↔
      (fieldsGiven names es).Nodup ∧ (∀ f ∈ fieldsGiven names es, f ∉ given.map (·.1)) ∧
        result = Entries.insertAll folded (es.map (renamed names)) := by
  induction es generalizing given folded with
  | nil => simp [foldKeysFrom, fieldsGiven, Entries.insertAll, eq_comm]
  | cons e rest ih =>
      obtain ⟨key, t⟩ := e
      rw [foldKeysFrom, List.map_cons, Entries.insertAll_cons]
      cases hfield : findName? names key with
      | none =>
          have hrenamed : renamed names (key, t) = (key, t) := by simp [renamed, hfield]
          rw [fieldsGiven_cons_of_none hfield, hrenamed]
          exact ih
      | some field =>
          have hrenamed : renamed names (key, t) = (field, t) := by simp [renamed, hfield]
          rw [fieldsGiven_cons_of_some hfield, hrenamed, List.nodup_cons, List.forall_mem_cons]
          dsimp only
          cases hmet : given.find? fun g => g.1 == field with
          | some g =>
              have hmem : field ∈ given.map (·.1) := by
                have hg : g.1 = field := by simpa using List.find?_some hmet
                exact hg ▸ List.mem_map_of_mem (List.mem_of_find?_eq_some hmet)
              constructor
              · intro h
                cases h
              · rintro ⟨_, ⟨hfresh, _⟩, _⟩
                exact absurd hmem hfresh
          | none =>
              have hfresh : field ∉ given.map (·.1) := by
                intro hmem
                obtain ⟨g, hg, heq⟩ := List.mem_map.mp hmem
                exact List.find?_eq_none.mp hmet g hg (by simp [heq])
              simp only [ih, List.map_append, List.map_cons, List.map_nil, List.mem_append,
                List.mem_singleton, not_or]
              constructor
              · rintro ⟨hnodup, hrest, hresult⟩
                exact ⟨⟨fun hmem => (hrest field hmem).2 rfl, hnodup⟩,
                  ⟨hfresh, fun f hf => (hrest f hf).1⟩, hresult⟩
              · rintro ⟨⟨hnew, hnodup⟩, ⟨_, hrest⟩, hresult⟩
                exact ⟨hnodup, fun f hf => ⟨hrest f hf, fun heq => hnew (heq ▸ hf)⟩, hresult⟩

/-- Keys are renamed iff no two of them stand for one field. -/
theorem foldKeys_eq_ok_iff
    {names : List String}
    {es : List (String × Tree)}
    {result : Entries Tree} :
    foldKeys names es = .ok result ↔
      (fieldsGiven names es).Nodup ∧ result = Entries.ofList (es.map (renamed names)) := by
  rw [foldKeys, foldKeysFrom_eq_ok_iff]
  simp [Entries.ofList]

/-- Every key after the renaming is a field iff every key stands for one. -/
theorem keys_renamed_subset_iff
    {names : List String}
    {es : List (String × Tree)} :
    (∀ k ∈ Entries.keys (Entries.ofList (es.map (renamed names))), k ∈ names) ↔
      ∀ e ∈ es, (findName? names e.1).isSome := by
  simp only [Entries.mem_keys_ofList_iff, List.map_map, List.forall_mem_map, Function.comp_apply]
  refine forall₂_congr fun e _ => ?_
  cases hfield : findName? names e.1 with
  | some field => simp [renamed, hfield, (Text.findName?_spells hfield).1]
  | none =>
      simp only [renamed, hfield, Option.getD_none, Option.isSome_none, Bool.false_eq_true,
        iff_false]
      intro hmem
      rw [Text.findName?_of_mem hmem] at hfield
      cases hfield

/-- The only key that stands for a field gives its value. -/
theorem find?_renamed
    {names : List String}
    {es : List (String × Tree)}
    (hnodup : (fieldsGiven names es).Nodup)
    {e : String × Tree}
    (he : e ∈ es)
    {name : String}
    (hfield : findName? names e.1 = some name) :
    Entries.find? name (Entries.ofList (es.map (renamed names))) = some e.2 := by
  have hname : name ∈ names := (Text.findName?_spells hfield).1
  obtain ⟨before, after, rfl⟩ := List.append_of_mem he
  have hafter : ∀ x ∈ after.map (renamed names), x.1 ≠ name := by
    intro x hx heq
    obtain ⟨e', he', rfl⟩ := List.mem_map.mp hx
    have hfield' := (renamed_key_eq_iff hname e').mp heq
    rw [fieldsGiven, List.filterMap_append, ← fieldsGiven, ← fieldsGiven,
      fieldsGiven_cons_of_some hfield] at hnodup
    have hnew := (List.nodup_cons.mp (List.nodup_append.mp hnodup).2.1).1
    exact hnew (List.mem_filterMap.mpr ⟨e', he', hfield'⟩)
  have hkey : renamed names e = (name, e.2) := by simp [renamed, hfield]
  rw [List.map_append, List.map_cons, hkey]
  exact Entries.find?_insertAll_of_last hafter [] e.2

/-- A field has the value of the key that stands for it. -/
theorem find?_foldKeys_iff
    {names : List String}
    {es : List (String × Tree)}
    {result : Entries Tree}
    (h : foldKeys names es = .ok result)
    {name : String}
    (hname : name ∈ names)
    {t : Tree} :
    Entries.find? name result = some t ↔ ∃ e ∈ es, findName? names e.1 = some name ∧ e.2 = t := by
  obtain ⟨hnodup, rfl⟩ := foldKeys_eq_ok_iff.mp h
  constructor
  · intro ht
    have hkeys : name ∈ Entries.keys (Entries.ofList (es.map (renamed names))) :=
      List.mem_map_of_mem (Entries.mem_of_find?_eq_some ht)
    rw [Entries.mem_keys_ofList_iff, List.map_map] at hkeys
    obtain ⟨e, he, heq⟩ := List.mem_map.mp hkeys
    have hfield := (renamed_key_eq_iff hname e).mp heq
    rw [find?_renamed hnodup he hfield] at ht
    exact ⟨e, he, hfield, Option.some.inj ht⟩
  · rintro ⟨e, he, hfield, rfl⟩
    exact find?_renamed hnodup he hfield

/-! ## Collisions -/

/-- Whether keys collide with each other or with given ones, and which ones are the first to do so. -/
def foldOutcome (names : List String) (given : List (String × String))
    (es : List (String × Tree)) : Except ShapeFault Unit :=
  (foldKeysFrom names given [] es).map fun _ => ()

/-- Whether keys collide does not depend on the entries that are renamed already. -/
theorem map_foldKeysFrom
    {names : List String}
    {given : List (String × String)}
    (folded : Entries Tree)
    (es : List (String × Tree)) :
    (foldKeysFrom names given folded es).map (fun _ => ()) = foldOutcome names given es := by
  have hsame : ∀ folded folded', (foldKeysFrom names given folded es).map (fun _ => ()) =
      (foldKeysFrom names given folded' es).map fun _ => () := by
    induction es generalizing given with
    | nil => exact fun _ _ => rfl
    | cons e rest ih =>
        intro folded folded'
        simp only [foldKeysFrom]
        cases findName? names e.1 with
        | none => exact ih _ _
        | some field =>
            dsimp only
            cases given.find? fun g => g.1 == field with
            | some g => rfl
            | none => exact ih _ _
  exact hsame folded []

theorem foldOutcome_cons
    (names : List String)
    (given : List (String × String))
    (e : String × Tree)
    (rest : List (String × Tree)) :
    foldOutcome names given (e :: rest) =
      match findName? names e.1 with
      | none => foldOutcome names given rest
      | some field =>
        match given.find? fun g => g.1 == field with
        | some g => .error (.collision g.2 e.1 field)
        | none => foldOutcome names (given ++ [(field, e.1)]) rest := by
  rw [foldOutcome, foldKeysFrom]
  cases findName? names e.1 with
  | none => exact map_foldKeysFrom _ _
  | some field =>
      dsimp only
      cases given.find? fun g => g.1 == field with
      | some g => rfl
      | none => exact map_foldKeysFrom _ _

/-- Only the given keys count that stand for the fields of further ones. -/
theorem foldOutcome_congr
    {names : List String}
    {given given' : List (String × String)}
    {es : List (String × Tree)}
    (h : ∀ field ∈ fieldsGiven names es,
      given.find? (fun g => g.1 == field) = given'.find? fun g => g.1 == field) :
    foldOutcome names given es = foldOutcome names given' es := by
  induction es generalizing given given' with
  | nil => rfl
  | cons e rest ih =>
      rw [foldOutcome_cons, foldOutcome_cons]
      cases hfield : findName? names e.1 with
      | none =>
          rw [fieldsGiven_cons_of_none hfield] at h
          exact ih h
      | some field =>
          rw [fieldsGiven_cons_of_some hfield] at h
          obtain ⟨hhead, hrest⟩ := List.forall_mem_cons.mp h
          dsimp only
          rw [hhead]
          cases given'.find? fun g => g.1 == field with
          | some g => rfl
          | none =>
              refine ih fun other hother => ?_
              rw [List.find?_append, List.find?_append, hrest other hother]

/-- Whether keys collide does not depend on their values. -/
theorem foldOutcome_of_keys_eq
    {names : List String}
    {given : List (String × String)}
    {es es' : List (String × Tree)}
    (h : es.map (·.1) = es'.map (·.1)) :
    foldOutcome names given es = foldOutcome names given es' := by
  induction es generalizing given es' with
  | nil => rw [List.map_eq_nil_iff.mp h.symm]
  | cons e rest ih =>
      cases es' with
      | nil => cases h
      | cons e' rest' =>
          obtain ⟨hkey, hrest⟩ := List.cons.inj h
          have hkey : e.1 = e'.1 := hkey
          rw [foldOutcome_cons, foldOutcome_cons, hkey]
          cases findName? names e'.1 with
          | none => exact ih hrest
          | some field =>
              dsimp only
              rw [ih hrest]

/-- The only key that stands for a field collides with no other. -/
theorem foldOutcome_drop
    {names : List String}
    {given : List (String × String)}
    {before after : List (String × Tree)}
    {e : String × Tree}
    {name : String}
    (hkey : findName? names e.1 = some name)
    (hbefore : name ∉ fieldsGiven names before)
    (hafter : name ∉ fieldsGiven names after)
    (hgiven : given.find? (fun g => g.1 == name) = none) :
    foldOutcome names given (before ++ e :: after) = foldOutcome names given (before ++ after) := by
  induction before generalizing given with
  | nil =>
      rw [List.nil_append, List.nil_append, foldOutcome_cons, hkey]
      dsimp only
      rw [hgiven]
      refine foldOutcome_congr fun field hfield => ?_
      have hne : name ≠ field := fun heq => hafter (heq ▸ hfield)
      simp [List.find?_append, hne]
  | cons first before ih =>
      rw [List.cons_append, List.cons_append, foldOutcome_cons, foldOutcome_cons]
      cases hfield : findName? names first.1 with
      | none =>
          rw [fieldsGiven_cons_of_none hfield] at hbefore
          exact ih hbefore hgiven
      | some field =>
          rw [fieldsGiven_cons_of_some hfield, List.mem_cons, not_or] at hbefore
          dsimp only
          cases given.find? fun g => g.1 == field with
          | some g => rfl
          | none =>
              refine ih hbefore.2 ?_
              simp [List.find?_append, hgiven, Ne.symm hbefore.1]

/-- A collision is one of two keys that stand for one field. -/
theorem foldKeysFrom_eq_error
    {names : List String}
    {given : List (String × String)}
    {folded : Entries Tree}
    {es : List (String × Tree)}
    {fault : ShapeFault}
    (h : foldKeysFrom names given folded es = .error fault) :
    ∃ first second field before after, fault = .collision first second.1 field ∧
      es = before ++ second :: after ∧ findName? names second.1 = some field ∧
        ((field, first) ∈ given ∨
          ∃ e ∈ before, e.1 = first ∧ findName? names first = some field) := by
  induction es generalizing given folded with
  | nil => cases h
  | cons e rest ih =>
      rw [foldKeysFrom] at h
      cases hfield : findName? names e.1 with
      | none =>
          rw [hfield] at h
          obtain ⟨first, second, field, before, after, hfault, rfl, hsecond, hfirst⟩ := ih h
          refine ⟨first, second, field, e :: before, after, hfault, rfl, hsecond, ?_⟩
          exact hfirst.imp_right fun ⟨e', he', hkey⟩ => ⟨e', List.mem_cons_of_mem _ he', hkey⟩
      | some name =>
          rw [hfield] at h
          dsimp only at h
          cases hmet : given.find? fun g => g.1 == name with
          | some g =>
              rw [hmet] at h
              cases h
              have hname : g.1 = name := by simpa using List.find?_some hmet
              have hmem := List.mem_of_find?_eq_some hmet
              exact ⟨g.2, e, name, [], rest, rfl, rfl, hfield, Or.inl (hname ▸ hmem)⟩
          | none =>
              rw [hmet] at h
              obtain ⟨first, second, field, before, after, hfault, rfl, hsecond, hfirst⟩ := ih h
              refine ⟨first, second, field, e :: before, after, hfault, rfl, hsecond, ?_⟩
              rcases hfirst with hgiven | ⟨e', he', hkey⟩
              · rcases List.mem_append.mp hgiven with hgiven | hnew
                · exact Or.inl hgiven
                · cases List.mem_singleton.mp hnew
                  exact Or.inr ⟨e, List.mem_cons_self, rfl, hfield⟩
              · exact Or.inr ⟨e', List.mem_cons_of_mem _ he', hkey⟩

theorem foldKeys_eq_error
    {names : List String}
    {es : List (String × Tree)}
    {fault : ShapeFault}
    (h : foldKeys names es = .error fault) :
    ∃ first second field before between after, fault = .collision first.1 second.1 field ∧
      es = before ++ first :: (between ++ second :: after) ∧
        findName? names first.1 = some field ∧ findName? names second.1 = some field := by
  obtain ⟨_, second, field, before, after, rfl, rfl, hsecond, hgiven | ⟨first, hfirst, rfl, hkey⟩⟩ :=
    foldKeysFrom_eq_error h
  · cases hgiven
  · obtain ⟨before, between, rfl⟩ := List.append_of_mem hfirst
    exact ⟨first, second, field, before, between, after, rfl, by simp, hkey, hsecond⟩

end Provision
