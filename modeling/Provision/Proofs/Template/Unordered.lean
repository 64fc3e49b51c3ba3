import Provision.Proofs.Template.Overlay

/-!
# Environment variables in any order

The variables of a process come in no particular order.  Whether one of them can be laid over a
context does not depend on the context, and each changes nothing but its own target: a field of one
of the scopes, a further variable, the home or the synthesizer.  So variables with different targets
can be laid over a context in any order.

**Results.**
* `Context.overlay_eq_ok_iff`: an overlay succeeds iff every target accepts its value.
* `Context.value?_overlay`: what an overlay leaves under each setting.
* `Context.overlay_unordered`: with different targets the order does not matter; each target has its
  value, all else is as before, and variables for no target have no effect.
-/

namespace Provision

namespace Scope

/-- The fields that a scope has. -/
def fields : List String :=
  ["id", "organization", "account", "region", "name", "alias", "environment", "version", "domain"]

/-- Whether a field can be set to a value. -/
def Accepts (field value : String) : Prop :=
  ∃ s, empty.set field value = .ok s

/-- It does not depend on the scope whether a field can be set. -/
theorem exists_set_iff
    {s : Scope}
    {field value : String} :
    (∃ s', s.set field value = .ok s') ↔ Accepts field value := by
  unfold Accepts set
  split
  all_goals simp [map_eq_ok_iff]

/-- Only the fields that a scope has can be set. -/
theorem Accepts.mem_fields
    {field value : String}
    (h : Accepts field value) :
    field ∈ fields := by
  obtain ⟨s, hs⟩ := h
  unfold set at hs
  split at hs
  case h_10 => cases hs
  all_goals simp [fields]

/-- A scope is known by the texts of its fields. -/
theorem eq_of_text?
    {s s' : Scope}
    (h : ∀ field, s.text? field = s'.text? field) :
    s = s' := by
  have henvironment : Function.Injective Environment.label := by
    intro e e'
    cases e <;> cases e' <;> simp [Environment.label]
  have hversion : Function.Injective Version.label := by
    intro v v'
    cases v <;> cases v' <;> simp [Version.label]
  cases s
  cases s'
  simp only [Scope.mk.injEq]
  exact ⟨h "id", h "organization", h "account", h "region", h "name", h "alias",
    Option.map_injective henvironment (h "environment"),
    Option.map_injective hversion (h "version"), h "domain"⟩

end Scope

namespace Setting

/-- Whether a context has a place for a setting: the scopes have certain fields only. -/
def IsTarget : Setting → Prop
  | .host field => field ∈ Scope.fields
  | .hosted field => field ∈ Scope.fields
  | _ => True

/-- Whether a setting can be set to a value. -/
def Accepts : Setting → String → Prop
  | .host field, value => Scope.Accepts field value
  | .hosted field, value => Scope.Accepts field value
  | _, _ => True

/-- What stands under a setting once it is set to a value. -/
def reading : Setting → String → Tree
  | .host field, value => .text (Scope.fieldText field value)
  | .hosted field, value => .text (Scope.fieldText field value)
  | _, value => .text value

theorem Accepts.isTarget
    {setting : Setting}
    {value : String}
    (h : setting.Accepts value) :
    setting.IsTarget := by
  cases setting with
  | host field => exact Scope.Accepts.mem_fields h
  | hosted field => exact Scope.Accepts.mem_fields h
  | «variable» name => trivial
  | home => trivial
  | synthesizer => trivial

end Setting

namespace Context

/-- What a context holds under a setting. -/
def value? (c : Context) : Setting → Option Tree
  | .host field => (c.host.text? field).map .text
  | .hosted field => (c.hosted.text? field).map .text
  | .variable name => Entries.find? name c.extras
  | .home => c.home.map .text
  | .synthesizer => c.synthesizer.map .text

variable {c c' : Context}
variable {vars : List (String × String)}

/-! ## When an overlay succeeds -/

/-- It does not depend on the context whether a setting can be set. -/
theorem exists_apply_iff
    {setting : Setting}
    {value : String} :
    (∃ c', c.apply setting value = .ok c') ↔ setting.Accepts value := by
  have hside : ∀ {s : Scope} {field : String} (f : Scope → Context),
      (∃ c', (s.set field value).map f = .ok c') ↔ Scope.Accepts field value := by
    intro s field f
    simp [← Scope.exists_set_iff (s := s), map_eq_ok_iff]
  cases setting with
  | host field => exact hside _
  | hosted field => exact hside _
  | «variable» name => exact iff_of_true ⟨_, rfl⟩ trivial
  | home => exact iff_of_true ⟨_, rfl⟩ trivial
  | synthesizer => exact iff_of_true ⟨_, rfl⟩ trivial

theorem exists_overlayOne_iff
    {entry : String × String} :
    (∃ c', c.overlayOne entry = .ok c') ↔
      ∀ setting : Setting, setting.IsFor entry.1 → setting.Accepts entry.2 := by
  rw [overlayOne]
  simp only [← Setting.ofKey?_eq_some_iff]
  cases Setting.ofKey? entry.1 with
  | none =>
      refine iff_of_true ⟨c, rfl⟩ fun setting hfor => ?_
      cases hfor
  | some setting =>
      rw [exists_apply_iff]
      constructor
      · rintro h _ ⟨⟩
        exact h
      · exact fun h => h setting rfl

/-- An overlay succeeds iff every target accepts its value. -/
theorem overlay_eq_ok_iff :
    (∃ c', c.overlay vars = .ok c') ↔
      ∀ e ∈ vars, ∀ setting : Setting, setting.IsFor e.1 → setting.Accepts e.2 := by
  induction vars generalizing c with
  | nil => exact iff_of_true ⟨c, rfl⟩ nofun
  | cons entry rest ih =>
      rw [List.forall_mem_cons, ← exists_overlayOne_iff (c := c), overlay]
      cases hone : c.overlayOne entry with
      | error e => simp
      | ok c₁ => simpa using ih

/-! ## What an overlay leaves -/

/-- What an overlay leaves under a setting comes from the last variable for it. -/
theorem value?_overlay
    (h : c.overlay vars = .ok c')
    (setting : Setting) :
    c'.value? setting = ((lastFor? setting vars).map setting.reading).or (c.value? setting) := by
  have hnamed : ∀ (other : String → Setting) (start : String),
      (∀ name key, (other name).IsFor key = (nameAfter? start key = some name)) →
        ∀ name, lastFor? (other name) vars = lastNamed? start name vars := by
    intro other start hother name
    simp only [lastFor?, lastNamed?, Setting.ofKey?_eq_some_iff, hother]
  have hkey : ∀ (other : Setting) (key : String),
      (∀ key', other.IsFor key' = (key' = key)) →
        lastFor? other vars = Entries.last? key vars := by
    intro other key hother
    simp only [lastFor?, Entries.last?, Setting.ofKey?_eq_some_iff, hother]
  cases setting with
  | host field =>
      rw [hnamed .host "STRATA_HOST_" fun _ _ => rfl, value?, overlay_host h, Option.map_or,
        Option.map_map]
      rfl
  | hosted field =>
      rw [hnamed .hosted "STRATA_HOSTED_" fun _ _ => rfl, value?, overlay_hosted h, Option.map_or,
        Option.map_map]
      rfl
  | «variable» name =>
      rw [hnamed .variable "STRATA_VAR_" fun _ _ => rfl, value?, overlay_extras h]
      rfl
  | home =>
      rw [hkey .home "STRATA_HOME" fun _ => rfl, value?, overlay_home h, Option.map_or]
      rfl
  | synthesizer =>
      rw [hkey .synthesizer "STRATA_SYNTHESIZER" fun _ => rfl, value?, overlay_synthesizer h,
        Option.map_or]
      rfl

/-! ## Different targets -/

/-- No two environment variables are for the same target. -/
def DistinctTargets (vars : List (String × String)) : Prop :=
  vars.Pairwise fun e e' => ∀ setting : Setting, setting.IsTarget → setting.IsFor e.1 →
    ¬ setting.IsFor e'.1

theorem lastFor?_eq_none
    {setting : Setting}
    (h : ∀ e ∈ vars, ¬ setting.IsFor e.1) :
    lastFor? setting vars = none := by
  refine List.findSome?_eq_none_iff.mpr fun e he => if_neg ?_
  rw [Setting.ofKey?_eq_some_iff]
  exact h e (List.mem_reverse.mp he)

/-- A variable with a target of its own is the last one for it. -/
theorem lastFor?_of_mem
    (hdistinct : DistinctTargets vars)
    {e : String × String}
    (he : e ∈ vars)
    {setting : Setting}
    (htarget : setting.IsTarget)
    (hfor : setting.IsFor e.1) :
    lastFor? setting vars = some e.2 := by
  obtain ⟨before, after, rfl⟩ := List.append_of_mem he
  have hafter : ∀ e' ∈ after, ¬ setting.IsFor e'.1 := fun e' he' =>
    (List.pairwise_cons.mp (List.pairwise_append.mp hdistinct).2.1).1 e' he' setting htarget hfor
  have hnone : lastSome? (fun e => if Setting.ofKey? e.1 = some setting then some e.2 else none)
      after = none := lastFor?_eq_none hafter
  rw [lastFor?, lastSome?_append, lastSome?_cons, hnone,
    if_pos (Setting.ofKey?_eq_some_iff.mpr hfor)]
  rfl

/-- Each target has its value after an overlay. -/
theorem value?_overlay_of_mem
    (hdistinct : DistinctTargets vars)
    (h : c.overlay vars = .ok c')
    {e : String × String}
    (he : e ∈ vars)
    {setting : Setting}
    (hfor : setting.IsFor e.1) :
    c'.value? setting = some (setting.reading e.2) := by
  have htarget : setting.IsTarget := (overlay_eq_ok_iff.mp ⟨c', h⟩ e he setting hfor).isTarget
  rw [value?_overlay h, lastFor?_of_mem hdistinct he htarget hfor]
  rfl

/-- What is no target of a variable is as before. -/
theorem value?_overlay_of_forall_not
    (h : c.overlay vars = .ok c')
    {setting : Setting}
    (hnone : ∀ e ∈ vars, ¬ setting.IsFor e.1) :
    c'.value? setting = c.value? setting := by
  rw [value?_overlay h, lastFor?_eq_none hnone]
  rfl

/-! ## Further variables -/

/-- The further variable that an environment variable sets. -/
def extraOf? (entry : String × String) : Option (String × Tree) :=
  match Setting.ofKey? entry.1 with
  | some (.variable name) => some (name, .text entry.2)
  | _ => none

theorem extraOf?_eq_some_iff
    {entry : String × String}
    {extra : String × Tree} :
    extraOf? entry = some extra ↔
      Setting.IsFor entry.1 (.variable extra.1) ∧ extra.2 = .text entry.2 := by
  rw [extraOf?, ← Setting.ofKey?_eq_some_iff]
  obtain ⟨name, t⟩ := extra
  split
  · rename_i other hother
    simp [hother, eq_comm]
  · rename_i hnone
    exact iff_of_false nofun fun h => hnone _ h.1

theorem extras_overlayOne
    {entry : String × String}
    (h : c.overlayOne entry = .ok c') :
    c'.extras = Entries.insertAll c.extras (extraOf? entry).toList := by
  rw [overlayOne] at h
  rw [extraOf?]
  cases hkey : Setting.ofKey? entry.1 with
  | none =>
      rw [hkey] at h
      cases h
      rfl
  | some setting =>
      rw [hkey] at h
      cases applied_of_apply h <;> rfl

/-- The further variables are put in one after the other. -/
theorem extras_overlay
    (h : c.overlay vars = .ok c') :
    c'.extras = Entries.insertAll c.extras (vars.filterMap extraOf?) := by
  induction vars generalizing c with
  | nil =>
      cases h
      rfl
  | cons entry rest ih =>
      rw [overlay] at h
      split at h
      · rename_i c₁ hone
        have hsplit : (entry :: rest).filterMap extraOf? =
            (extraOf? entry).toList ++ rest.filterMap extraOf? := by
          rw [List.filterMap_cons]
          cases extraOf? entry <;> rfl
        rw [ih h, extras_overlayOne hone, hsplit, Entries.insertAll_append]
      · cases h

theorem keys_extras_nodup
    (hdistinct : DistinctTargets vars) :
    (Entries.keys (vars.filterMap extraOf?)).Nodup := by
  refine List.pairwise_map.mpr (List.pairwise_filterMap.mpr ?_)
  refine hdistinct.imp fun hne extra hextra extra' hextra' heq => ?_
  have hfor := (extraOf?_eq_some_iff.mp hextra).1
  have hfor' := (extraOf?_eq_some_iff.mp hextra').1
  rw [← heq] at hfor'
  exact hne (.variable extra.1) trivial hfor hfor'

/-! ## Any order -/

theorem eq_of_value?
    (h : ∀ setting, c.value? setting = c'.value? setting)
    (hextras : c.extras = c'.extras) :
    c = c' := by
  have htext : Function.Injective (Option.map Tree.text) :=
    Option.map_injective fun _ _ => Tree.text.inj
  have hhost : c.host = c'.host := Scope.eq_of_text? fun field => htext (h (.host field))
  have hhosted : c.hosted = c'.hosted := Scope.eq_of_text? fun field => htext (h (.hosted field))
  have hhome : c.home = c'.home := htext (h .home)
  have hsynthesizer : c.synthesizer = c'.synthesizer := htext (h .synthesizer)
  cases c
  cases c'
  simp only [Context.mk.injEq]
  exact ⟨hhost, hhosted, hhome, hsynthesizer, hextras⟩

theorem DistinctTargets.perm
    {vars' : List (String × String)}
    (h : DistinctTargets vars)
    (hperm : vars.Perm vars') :
    DistinctTargets vars' :=
  (hperm.pairwise_iff fun hne setting htarget hfor' hfor => hne setting htarget hfor hfor').mp h

/-- Two orders of the same variables that both succeed leave the same context. -/
theorem overlay_perm_eq
    {c₁ c₂ : Context}
    {vars' : List (String × String)}
    (hdistinct : DistinctTargets vars)
    (hperm : vars.Perm vars')
    (h : c.overlay vars = .ok c₁)
    (h' : c.overlay vars' = .ok c₂) :
    c₁ = c₂ := by
  refine eq_of_value? (fun setting => ?_) ?_
  · by_cases hfor : ∃ e ∈ vars, setting.IsFor e.1
    · obtain ⟨e, he, hfor⟩ := hfor
      rw [value?_overlay_of_mem hdistinct h he hfor,
        value?_overlay_of_mem (hdistinct.perm hperm) h' (hperm.mem_iff.mp he) hfor]
    · have hnone : ∀ e ∈ vars, ¬ setting.IsFor e.1 := fun e he hfor' => hfor ⟨e, he, hfor'⟩
      rw [value?_overlay_of_forall_not h hnone,
        value?_overlay_of_forall_not h' fun e he => hnone e (hperm.mem_iff.mpr he)]
  · rw [extras_overlay h, extras_overlay h']
    exact Entries.insertAll_perm (hperm.filterMap extraOf?) (keys_extras_nodup hdistinct) c.extras

/-- A variable that is for no setting has no effect. -/
theorem overlay_append_cons
    {entry : String × String}
    (hnone : ∀ setting : Setting, ¬ setting.IsFor entry.1)
    (front back : List (String × String)) :
    c.overlay (front ++ entry :: back) = c.overlay (front ++ back) := by
  induction front generalizing c with
  | nil =>
      have hkey : Setting.ofKey? entry.1 = none := by
        rw [Option.eq_none_iff_forall_ne_some]
        exact fun setting hsome => hnone setting (Setting.ofKey?_eq_some_iff.mp hsome)
      rw [List.nil_append, overlay, overlayOne, hkey]
      rfl
  | cons first front ih =>
      rw [List.cons_append, List.cons_append, overlay, overlay]
      split
      · exact ih
      · rfl

/-- Environment variables with different targets can be laid over a context in any order: either no
order succeeds or all leave the same context.  In it each target has its value and every other
setting is as before; a variable that is for no setting might as well be left out. -/
theorem overlay_unordered
    (hdistinct : DistinctTargets vars)
    (c : Context) :
    (∀ vars', vars.Perm vars' → (c.overlay vars').toOption = (c.overlay vars).toOption) ∧
      (∀ c', c.overlay vars = .ok c' →
        (∀ e ∈ vars, ∀ setting : Setting, setting.IsFor e.1 →
          c'.value? setting = some (setting.reading e.2)) ∧
        ∀ setting : Setting, (∀ e ∈ vars, ¬ setting.IsFor e.1) →
          c'.value? setting = c.value? setting) ∧
      ∀ front entry back, vars = front ++ entry :: back →
        (∀ setting : Setting, ¬ setting.IsFor entry.1) →
          c.overlay (front ++ back) = c.overlay vars := by
  refine ⟨fun vars' hperm => ?_, fun c' h => ⟨?_, ?_⟩, ?_⟩
  · have hsucceeds : (∃ c', c.overlay vars' = .ok c') ↔ ∃ c', c.overlay vars = .ok c' := by
      simp only [overlay_eq_ok_iff, hperm.mem_iff]
    cases h : c.overlay vars with
    | ok c₁ =>
        obtain ⟨c₂, h'⟩ := hsucceeds.mpr ⟨c₁, h⟩
        rw [h', overlay_perm_eq hdistinct hperm h h']
    | error e =>
        cases h' : c.overlay vars' with
        | ok c₂ =>
            obtain ⟨c₁, hok⟩ := hsucceeds.mp ⟨c₂, h'⟩
            rw [h] at hok
            cases hok
        | error e' => rfl
  · exact fun e he setting hfor => value?_overlay_of_mem hdistinct h he hfor
  · exact fun setting hnone => value?_overlay_of_forall_not h hnone
  · rintro front entry back rfl hnone
    exact (overlay_append_cons hnone front back).symm

theorem distinctTargets_of_nodup
    (h : (vars.filterMap fun e => Setting.ofKey? e.1).Nodup) :
    DistinctTargets vars := by
  refine (List.pairwise_filterMap.mp h).imp fun hne setting _ hfor hfor' => ?_
  exact hne setting (Setting.ofKey?_of_isFor hfor) setting (Setting.ofKey?_of_isFor hfor') rfl

/-- Variables whose names share their starts, and one that is none of the deployment. -/
def crossedVariables : List (String × String) :=
  [("STRATA_HOST_ENVIRONMENT", " Production "), ("PATH", "/bin"), ("STRATA_VAR_HOST_ID", "x"),
    ("STRATA_HOSTED_Environment", "bootstrap"), ("STRATA_HOME", "/srv")]

/-- Backwards the variables leave the same context; the host and the hosted side do not get in each
other's way. -/
theorem crossed_overlay_unordered :
    DistinctTargets crossedVariables ∧
      (empty.overlay crossedVariables.reverse).toOption =
        (empty.overlay crossedVariables).toOption ∧
      (∃ c', empty.overlay crossedVariables = .ok c' ∧
        c'.value? (.host "environment") = some (.text "production") ∧
        c'.value? (.hosted "environment") = some (.text "bootstrap") ∧
        c'.value? (.hosted "id") = none) ∧
      empty.overlay (crossedVariables.take 1 ++ crossedVariables.drop 2) =
        empty.overlay crossedVariables := by
  have hdistinct : DistinctTargets crossedVariables := distinctTargets_of_nodup (by decide)
  obtain ⟨horder, hleft, hother⟩ := overlay_unordered hdistinct empty
  obtain ⟨c', hc'⟩ : ∃ c', empty.overlay crossedVariables = .ok c' := ⟨_, rfl⟩
  have hid : ∀ e ∈ crossedVariables, ¬ Setting.IsFor e.1 (.hosted "id") := by
    simp only [← Setting.ofKey?_eq_some_iff]
    decide
  have hpath : ∀ setting : Setting, ¬ setting.IsFor "PATH" := by
    simp only [← Setting.ofKey?_eq_some_iff]
    exact nofun
  refine ⟨hdistinct, horder _ (List.reverse_perm _).symm, ⟨c', hc', ?_, ?_, ?_⟩,
    hother _ _ _ rfl hpath⟩
  · exact (hleft c' hc').1 _ List.mem_cons_self (.host "environment") rfl
  · exact (hleft c' hc').1 ("STRATA_HOSTED_Environment", "bootstrap") (by decide)
      (.hosted "environment") rfl
  · exact (hleft c' hc').2 (.hosted "id") hid

end Context

end Provision
