import Mathlib.Data.List.Induction
import Provision.Proofs.Shape.Keys

/-!
# What becomes of the keys of an object

The keys of an object are renamed in their order, and the first one that stands for a field which an
earlier key gave is reported with that key.  If there is none, every entry keeps its value and no two
entries meet: two keys do not stand for one field, and a key that stands for no field is none itself.

**Results.**
* `foldKeysFrom_append`: keys that do not collide are renamed before the others are looked at.
* `nodup_fieldsGiven_iff`: when no field is given twice.
* `ofList_renamed_perm`: renaming loses no entry.
* `foldKeys_verdict`: which keys are reported, and which entries there are otherwise.
-/

namespace Provision

open Text (SpeltApart findName? sameName)

variable {names : List String}

/-- A key that is one of the names, spelt in any way. -/
def Spells (names : List String) (key name : String) : Prop :=
  name ∈ names ∧ sameName name key = true

/-- Two keys of an object, the first in front of the second, that stand for one field. -/
structure BothSet (names : List String) (es : Entries Tree) (first second field : String) :
    Prop where
  first_mem : first ∈ Entries.keys es
  second_mem : second ∈ Entries.keys es
  lt : first < second
  first_spells : Spells names first field
  second_spells : Spells names second field

/-! ## The keys before a collision -/

/-- The fields that keys stand for, each with its key. -/
def keysGiven (names : List String) (es : List (String × Tree)) : List (String × String) :=
  es.filterMap fun e => (findName? names e.1).map fun field => (field, e.1)

theorem keysGiven_fields
    (es : List (String × Tree)) :
    (keysGiven names es).map (·.1) = fieldsGiven names es := by
  rw [keysGiven, List.map_filterMap, fieldsGiven]
  simp [Function.comp_def]

theorem mem_keysGiven_iff
    {es : List (String × Tree)}
    {field key : String} :
    (field, key) ∈ keysGiven names es ↔ ∃ e ∈ es, e.1 = key ∧ findName? names key = some field := by
  simp only [keysGiven, List.mem_filterMap, Option.map_eq_some_iff, Prod.mk.injEq]
  constructor
  · rintro ⟨e, he, name, hname, rfl, rfl⟩
    exact ⟨e, he, rfl, hname⟩
  · rintro ⟨e, he, rfl, hname⟩
    exact ⟨e, he, field, hname, rfl, rfl⟩

/-- Keys that do not collide with each other or with given ones are renamed before the others are
looked at. -/
theorem foldKeysFrom_append
    {given : List (String × String)}
    {before : List (String × Tree)}
    (h : (given.map (·.1) ++ fieldsGiven names before).Nodup)
    (folded : Entries Tree)
    (after : List (String × Tree)) :
    foldKeysFrom names given folded (before ++ after) =
      foldKeysFrom names (given ++ keysGiven names before)
        (Entries.insertAll folded (before.map (renamed names))) after := by
  induction before generalizing given folded with
  | nil => simp [keysGiven, Entries.insertAll]
  | cons e before ih =>
      obtain ⟨key, t⟩ := e
      rw [List.cons_append, foldKeysFrom, List.map_cons, Entries.insertAll_cons]
      cases hfield : findName? names key with
      | none =>
          have hgiven : keysGiven names ((key, t) :: before) = keysGiven names before := by
            simp [keysGiven, hfield]
          rw [fieldsGiven_cons_of_none hfield] at h
          rw [hgiven]
          simpa [renamed, hfield] using ih h (Entries.insert key t folded)
      | some field =>
          have hgiven : given ++ keysGiven names ((key, t) :: before) =
              (given ++ [(field, key)]) ++ keysGiven names before := by
            simp [keysGiven, hfield]
          rw [fieldsGiven_cons_of_some hfield] at h
          have hfresh : given.find? (fun g => g.1 == field) = none := by
            refine List.find?_eq_none.mpr fun g hg => ?_
            have hne := (List.nodup_append.mp h).2.2 g.1 (List.mem_map_of_mem hg) field
              List.mem_cons_self
            simpa using hne
          have hnext : ((given ++ [(field, key)]).map (·.1) ++ fieldsGiven names before).Nodup := by
            simpa using h
          dsimp only
          rw [hfresh, hgiven]
          simpa [renamed, hfield] using ih hnext (Entries.insert field t folded)

/-- The first key that stands for a field given before is reported with the key that gave it. -/
theorem foldKeys_of_repeated
    {before after : List (String × Tree)}
    {first second field : String}
    {t : Tree}
    (hbefore : (fieldsGiven names before).Nodup)
    (hfirst : first ∈ Entries.keys before)
    (hfield : findName? names first = some field)
    (hsecond : findName? names second = some field) :
    foldKeys names (before ++ (second, t) :: after) = .error (.collision first second field) := by
  rw [foldKeys, foldKeysFrom_append (by simpa using hbefore), List.nil_append, foldKeysFrom, hsecond]
  obtain ⟨e, he, rfl⟩ := List.mem_map.mp hfirst
  have hgiven : (field, e.1) ∈ keysGiven names before :=
    mem_keysGiven_iff.mpr ⟨e, he, rfl, hfield⟩
  have hfound : (keysGiven names before).find? (fun g => g.1 == field) = some (field, e.1) := by
    cases hmet : (keysGiven names before).find? fun g => g.1 == field with
    | none => exact absurd (List.find?_eq_none.mp hmet _ hgiven) (by simp)
    | some g =>
        have hsame : g.1 = field := by simpa using List.find?_some hmet
        rw [← keysGiven_fields] at hbefore
        rw [List.inj_on_of_nodup_map hbefore (List.mem_of_find?_eq_some hmet) hgiven hsame]
  dsimp only
  rw [hfound]

/-- If a field is given twice, there is a first key that gives one again. -/
theorem exists_repeated
    {es : List (String × Tree)}
    (h : ¬ (fieldsGiven names es).Nodup) :
    ∃ before second after field, es = before ++ second :: after ∧
      (fieldsGiven names before).Nodup ∧ findName? names second.1 = some field ∧
        field ∈ fieldsGiven names before := by
  -- The last entry is the first that repeats a field only if those before it do not.
  induction es using List.reverseRecOn with
  | nil => exact absurd List.nodup_nil h
  | append_singleton es e ih =>
      by_cases hes : (fieldsGiven names es).Nodup
      · rw [fieldsGiven, List.filterMap_append, ← fieldsGiven, ← fieldsGiven] at h
        cases hfield : findName? names e.1 with
        | none =>
            rw [fieldsGiven_cons_of_none hfield] at h
            exact absurd (by simpa [fieldsGiven] using hes) h
        | some field =>
            refine ⟨es, e, [], field, rfl, hes, hfield, ?_⟩
            by_contra hnew
            rw [fieldsGiven_cons_of_some hfield] at h
            exact h (List.nodup_append.mpr ⟨hes, List.nodup_singleton field, by
              rintro f hf _ hmem rfl
              exact hnew (List.mem_singleton.mp hmem ▸ hf)⟩)
      · obtain ⟨before, second, after, field, rfl, hrest⟩ := ih hes
        exact ⟨before, second, after ++ [e], field, by simp, hrest⟩

/-! ## Collisions and fields given twice -/

section Ordered

variable {es : Entries Tree}

/-- In key order, the entries before one are those with lesser keys. -/
theorem mem_keys_before_iff
    {before after : List (String × Tree)}
    {e : String × Tree}
    (hes : Entries.Ordered (before ++ e :: after))
    {key : String} :
    key ∈ Entries.keys before ↔ key ∈ Entries.keys (before ++ e :: after) ∧ key < e.1 := by
  obtain ⟨_, hafter, hbefore⟩ := List.pairwise_append.mp hes
  constructor
  · intro hkey
    obtain ⟨x, hx, rfl⟩ := List.mem_map.mp hkey
    exact ⟨List.mem_map_of_mem (List.mem_append_left _ hx), hbefore x hx e List.mem_cons_self⟩
  · rintro ⟨hkey, hlt⟩
    obtain ⟨x, hx, rfl⟩ := List.mem_map.mp hkey
    rcases List.mem_append.mp hx with hx | hx
    · exact List.mem_map_of_mem hx
    · rcases List.mem_cons.mp hx with rfl | hx
      · exact absurd hlt (String.lt_irrefl _)
      · exact absurd hlt (String.lt_asymm ((List.pairwise_cons.mp hafter).1 x hx))

variable (hnames : SpeltApart names)
include hnames

theorem bothSet_of_findName?
    {first second field : String}
    (hfirst : first ∈ Entries.keys es)
    (hsecond : second ∈ Entries.keys es)
    (hlt : first < second)
    (hfield : findName? names first = some field)
    (hfield' : findName? names second = some field) :
    BothSet names es first second field :=
  ⟨hfirst, hsecond, hlt, (Text.findName?_eq_some_iff hnames).mp hfield,
    (Text.findName?_eq_some_iff hnames).mp hfield'⟩

/-- No field is given twice iff no two keys stand for one. -/
theorem nodup_fieldsGiven_iff
    (hes : es.Ordered) :
    (fieldsGiven names es).Nodup ↔ ∀ first second field, ¬ BothSet names es first second field := by
  constructor
  · intro hnodup first second field h
    obtain ⟨e, he, rfl⟩ := List.mem_map.mp h.second_mem
    obtain ⟨before, after, rfl⟩ := List.append_of_mem he
    obtain ⟨e', he', hkey⟩ := List.mem_map.mp
      ((mem_keys_before_iff hes).mpr ⟨h.first_mem, h.lt⟩)
    have hsecond := (Text.findName?_eq_some_iff hnames).mpr h.second_spells
    have hfirst := (Text.findName?_eq_some_iff hnames).mpr h.first_spells
    rw [← hkey] at hfirst
    rw [fieldsGiven, List.filterMap_append, ← fieldsGiven, ← fieldsGiven,
      fieldsGiven_cons_of_some hsecond] at hnodup
    exact (List.nodup_append.mp hnodup).2.2 field (List.mem_filterMap.mpr ⟨e', he', hfirst⟩) field
      List.mem_cons_self rfl
  · intro hnone
    by_contra hrepeated
    obtain ⟨before, second, after, field, rfl, _, hsecond, hmem⟩ := exists_repeated hrepeated
    obtain ⟨first, hfirst, hfield⟩ := List.mem_filterMap.mp hmem
    obtain ⟨hkey, hlt⟩ := (mem_keys_before_iff hes).mp (List.mem_map_of_mem hfirst)
    exact hnone first.1 second.1 field (bothSet_of_findName? hnames hkey (by simp [Entries.keys]) hlt
      hfield hsecond)

/-- Two keys for one field whose second one is the least such key are reported. -/
theorem foldKeys_of_bothSet
    (hes : es.Ordered)
    {first second field : String}
    (h : BothSet names es first second field)
    (hleast : ∀ first' second' field', BothSet names es first' second' field' →
      second ≤ second') :
    foldKeys names es = .error (.collision first second field) := by
  obtain ⟨⟨key, t⟩, he, hkey⟩ := List.mem_map.mp h.second_mem
  cases hkey
  obtain ⟨before, after, rfl⟩ := List.append_of_mem he
  have hbefore : before.Pairwise fun a b => a.1 < b.1 := (List.pairwise_append.mp hes).1
  refine foldKeys_of_repeated ((nodup_fieldsGiven_iff hnames hbefore).mpr fun a b f hab => ?_)
    ((mem_keys_before_iff hes).mpr ⟨h.first_mem, h.lt⟩)
    ((Text.findName?_eq_some_iff hnames).mpr h.first_spells)
    ((Text.findName?_eq_some_iff hnames).mpr h.second_spells)
  obtain ⟨ha, _⟩ := (mem_keys_before_iff hes).mp hab.first_mem
  obtain ⟨hb, hlt⟩ := (mem_keys_before_iff hes).mp hab.second_mem
  exact String.not_lt.mpr
    (hleast a b f ⟨ha, hb, hab.lt, hab.first_spells, hab.second_spells⟩) hlt

/-- If two keys stand for one field, there is a least key that repeats one. -/
theorem exists_least_bothSet
    (hes : es.Ordered)
    (h : ¬ (fieldsGiven names es).Nodup) :
    ∃ first second field, BothSet names es first second field ∧
      ∀ first' second' field', BothSet names es first' second' field' → second ≤ second' := by
  obtain ⟨before, second, after, field, rfl, hbefore, hsecond, hmem⟩ := exists_repeated h
  obtain ⟨first, hfirst, hfield⟩ := List.mem_filterMap.mp hmem
  obtain ⟨hkey, hlt⟩ := (mem_keys_before_iff hes).mp (List.mem_map_of_mem hfirst)
  refine ⟨first.1, second.1, field, bothSet_of_findName? hnames hkey (by simp [Entries.keys]) hlt
    hfield hsecond, fun a b f hab => String.not_lt.mp fun hlt' => ?_⟩
  have hordered : before.Pairwise fun a b => a.1 < b.1 := (List.pairwise_append.mp hes).1
  have hb := (mem_keys_before_iff hes).mpr ⟨hab.second_mem, hlt'⟩
  have ha := (mem_keys_before_iff hes).mpr ⟨hab.first_mem, String.lt_trans hab.lt hlt'⟩
  exact (nodup_fieldsGiven_iff hnames hordered).mp hbefore a b f
    ⟨ha, hb, hab.lt, hab.first_spells, hab.second_spells⟩

theorem foldKeys_eq_error_iff
    (hes : es.Ordered)
    {fault : ShapeFault} :
    foldKeys names es = .error fault ↔
      ∃ first second field, fault = .collision first second field ∧
        BothSet names es first second field ∧
          ∀ first' second' field', BothSet names es first' second' field' → second ≤ second' := by
  constructor
  · intro h
    have hrepeated : ¬ (fieldsGiven names es).Nodup := fun hnodup => by
      rw [foldKeys_eq_ok_iff.mpr ⟨hnodup, rfl⟩] at h
      cases h
    obtain ⟨first, second, field, hboth, hleast⟩ := exists_least_bothSet hnames hes hrepeated
    rw [foldKeys_of_bothSet hnames hes hboth hleast] at h
    cases h
    exact ⟨first, second, field, rfl, hboth, hleast⟩
  · rintro ⟨first, second, field, rfl, hboth, hleast⟩
    exact foldKeys_of_bothSet hnames hes hboth hleast

end Ordered

/-! ## Renamed entries -/

/-- Entries that do not collide have distinct keys after the renaming. -/
theorem keys_renamed_nodup
    {es : Entries Tree}
    (hes : es.Ordered)
    (h : (fieldsGiven names es).Nodup) :
    (Entries.keys (es.map (renamed names))).Nodup := by
  have hapart : es.Pairwise fun a b => ∀ f ∈ findName? names a.1, ∀ f' ∈ findName? names b.1,
      f ≠ f' := List.pairwise_filterMap.mp h
  rw [Entries.keys, List.map_map]
  refine List.pairwise_map.mpr ((hes.and hapart).imp ?_)
  rintro a b ⟨hlt, hfields⟩ heq
  have heq : (renamed names a).1 = (renamed names b).1 := heq
  cases ha : findName? names a.1 with
  | some field =>
      -- A field is not the key of an entry that stands for no field.
      have hmem := (Text.findName?_spells ha).1
      have hb : findName? names b.1 = some field :=
        (renamed_key_eq_iff hmem b).mp (by rw [← heq, renamed, ha, Option.getD_some])
      exact hfields field ha field hb rfl
  | none =>
      cases hb : findName? names b.1 with
      | some field =>
          have hmem := (Text.findName?_spells hb).1
          have ha' := (renamed_key_eq_iff hmem a).mp (by rw [heq, renamed, hb, Option.getD_some])
          rw [ha] at ha'
          cases ha'
      | none =>
          simp only [renamed, ha, hb, Option.getD_none] at heq
          exact String.lt_irrefl _ (heq ▸ hlt)

/-- Renaming keys that do not collide loses no entry. -/
theorem ofList_renamed_perm
    {es : Entries Tree}
    (hes : es.Ordered)
    (h : (fieldsGiven names es).Nodup) :
    (Entries.ofList (es.map (renamed names))).Perm (es.map (renamed names)) :=
  Entries.ofList_perm (keys_renamed_nodup hes h)

theorem renamed_eq_iff
    (hnames : SpeltApart names)
    {e : String × Tree}
    {key : String}
    {t : Tree} :
    renamed names e = (key, t) ↔
      (Spells names e.1 key ∨ e.1 = key ∧ ∀ name ∈ names, sameName name key = false) ∧ e.2 = t := by
  rw [renamed, Prod.mk.injEq]
  refine and_congr_left fun _ => ?_
  rw [Spells, ← Text.findName?_eq_some_iff hnames]
  cases hfield : findName? names e.1 with
  | some field =>
      obtain ⟨hmem, hsame⟩ := Text.findName?_spells hfield
      rw [Option.getD_some, Option.some.injEq, or_iff_left]
      rintro ⟨rfl, hnone⟩
      rw [hnone field hmem] at hsame
      cases hsame
  | none =>
      rw [Option.getD_none, or_iff_right (Option.some_ne_none key).symm, iff_self_and]
      rintro rfl
      exact Text.findName?_eq_none_iff.mp hfield

/-- The keys of an object are refused iff two of them stand for one field; the least key that stands
for a field given by an earlier one is then reported, with that key and the field.  Otherwise there
are as many entries as before: every field that a key stands for has the value of this key, and every
other key has its own value. -/
theorem foldKeys_verdict
    (hnames : SpeltApart names)
    {es : Entries Tree}
    (hes : es.Ordered) :
    ((∃ fault, foldKeys names es = .error fault) ↔
      ∃ a ∈ Entries.keys es, ∃ b ∈ Entries.keys es, a ≠ b ∧
        ∃ field, Spells names a field ∧ Spells names b field) ∧
    (∀ fault, foldKeys names es = .error fault ↔
      ∃ first second field, fault = .collision first second field ∧
        BothSet names es first second field ∧
          ∀ first' second' field', BothSet names es first' second' field' → second ≤ second') ∧
    ∀ result, foldKeys names es = .ok result →
      result.length = es.length ∧ result.Ordered ∧
      ∀ key t, (key, t) ∈ result ↔
        (∃ own, (own, t) ∈ es ∧ Spells names own key) ∨
          (key, t) ∈ es ∧ ∀ name ∈ names, sameName name key = false := by
  refine ⟨⟨?_, ?_⟩, fun _ => foldKeys_eq_error_iff hnames hes, fun result hresult => ?_⟩
  · rintro ⟨fault, hfault⟩
    obtain ⟨first, second, field, _, h, _⟩ := (foldKeys_eq_error_iff hnames hes).mp hfault
    exact ⟨first, h.first_mem, second, h.second_mem, ne_of_lt h.lt, field, h.first_spells,
      h.second_spells⟩
  · rintro ⟨a, ha, b, hb, hne, field, hfirst, hsecond⟩
    cases hfold : foldKeys names es with
    | error fault => exact ⟨fault, rfl⟩
    | ok result =>
        have hnone := (nodup_fieldsGiven_iff hnames hes).mp (foldKeys_eq_ok_iff.mp hfold).1
        rcases lt_or_gt_of_ne hne with hlt | hlt
        · exact absurd ⟨ha, hb, hlt, hfirst, hsecond⟩ (hnone a b field)
        · exact absurd ⟨hb, ha, hlt, hsecond, hfirst⟩ (hnone b a field)
  · obtain ⟨hnodup, rfl⟩ := foldKeys_eq_ok_iff.mp hresult
    have hperm := ofList_renamed_perm hes hnodup
    refine ⟨by rw [hperm.length_eq, List.length_map], Entries.ofList_ordered _, fun key t => ?_⟩
    rw [hperm.mem_iff, List.mem_map]
    constructor
    · rintro ⟨e, he, heq⟩
      obtain ⟨hspells | ⟨rfl, hnone⟩, rfl⟩ := (renamed_eq_iff hnames).mp heq
      · exact .inl ⟨e.1, he, hspells⟩
      · exact .inr ⟨he, hnone⟩
    · rintro (⟨own, he, hspells⟩ | ⟨he, hnone⟩)
      · exact ⟨_, he, (renamed_eq_iff hnames).mpr ⟨.inl hspells, rfl⟩⟩
      · exact ⟨_, he, (renamed_eq_iff hnames).mpr ⟨.inr ⟨rfl, hnone⟩, rfl⟩⟩

/-- An object with two keys for each of two fields. -/
def giddyKeys : Entries Tree :=
  [("CIDR_MASK", .int 16), ("NAME", .text "core"), ("cidr-mask", .int 24), ("name", .null)]

/-- An object with unknown keys that differ in spelling only, and a field between them. -/
def steadyKeys : Entries Tree :=
  [("CIDR_MASK", .int 16), ("x-y", .null), ("x_y", .text "kept")]

/-- Of the two keys that repeat a field the lesser one is reported; keys that stand for no field are
kept apart however they are spelt. -/
theorem giddyKeys_verdict :
    SpeltApart ["cidrMask", "name"] ∧ giddyKeys.Ordered ∧ steadyKeys.Ordered ∧
      (BothSet ["cidrMask", "name"] giddyKeys "CIDR_MASK" "cidr-mask" "cidrMask" ∧
        ∀ first second field, BothSet ["cidrMask", "name"] giddyKeys first second field →
          "cidr-mask" ≤ second) ∧
      (foldKeys ["cidrMask", "name"] steadyKeys =
          .ok [("cidrMask", .int 16), ("x-y", .null), ("x_y", .text "kept")] ∧
        ∀ own t, (own, t) ∈ steadyKeys → Spells ["cidrMask", "name"] own "cidrMask" →
          ("cidrMask", t) ∈ [("cidrMask", Tree.int 16), ("x-y", .null), ("x_y", .text "kept")]) := by
  have hnames : SpeltApart ["cidrMask", "name"] := by decide +kernel
  have hgiddy : giddyKeys.Ordered := by decide
  have hsteady : steadyKeys.Ordered := by decide
  have hcollision : foldKeys ["cidrMask", "name"] giddyKeys =
      .error (.collision "CIDR_MASK" "cidr-mask" "cidrMask") := by rfl
  have hkept : foldKeys ["cidrMask", "name"] steadyKeys =
      .ok [("cidrMask", .int 16), ("x-y", .null), ("x_y", .text "kept")] := by rfl
  obtain ⟨first, second, field, heq, hboth⟩ :=
    ((foldKeys_verdict hnames hgiddy).2.1 _).mp hcollision
  cases heq
  refine ⟨hnames, hgiddy, hsteady, hboth, hkept, fun own t hown hspells => ?_⟩
  exact (((foldKeys_verdict hnames hsteady).2.2 _ hkept).2.2 "cidrMask" t).mpr
    (.inl ⟨own, hown, hspells⟩)

end Provision
