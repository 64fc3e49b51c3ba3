import Provision.Proofs.Chain
import Provision.Proofs.Entries
import Provision.Template.Context

/-!
# Environment variables over contexts

Environment variables are laid over a context one after the other, each of them changing one setting
and leaving the others as they are.  So every setting is the one that the last variable with its
name gives, or else the one from before.  This is proved once for whatever is read off a context
(`Context.view_overlay`) and then used for each setting.

**Results.**
* `Setting.ofKey?_eq_some_iff`: the names of the variables for each setting.
* `Context.overlay_home`, `Context.overlay_synthesizer`, `Context.overlay_extras`,
  `Context.overlay_host`, `Context.overlay_hosted`: what a context holds after an overlay.
* `Context.find?_defaults`: the variables that a context gives.
-/

namespace Provision

/-! ## Names of settings -/

/-- The name after a start, in small letters. -/
def nameAfter? (start key : String) : Option String :=
  (Text.dropStart? start key).map Text.lowerAscii

theorem nameAfter?_eq_some_iff
    {start key name : String} :
    nameAfter? start key = some name ↔
      ∃ rest, key = start ++ rest ∧ Text.lowerAscii rest = name := by
  simp only [nameAfter?, Option.map_eq_some_iff, Text.dropStart?_eq_some_iff]

namespace Setting

/-- Whether an environment variable is one for a setting. -/
def IsFor (key : String) : Setting → Prop
  | .host field => nameAfter? "STRATA_HOST_" key = some field
  | .hosted field => nameAfter? "STRATA_HOSTED_" key = some field
  | .variable name => nameAfter? "STRATA_VAR_" key = some name
  | .home => key = "STRATA_HOME"
  | .synthesizer => key = "STRATA_SYNTHESIZER"

theorem isFor_of_ofKey?
    {key : String}
    {setting : Setting}
    (h : ofKey? key = some setting) :
    setting.IsFor key := by
  obtain ⟨name, hname, h⟩ := Option.bind_eq_some_iff.mp h
  have hkey : key = "STRATA_" ++ name := Text.dropStart?_eq_some_iff.mp hname
  have hstart : ∀ start rest, Text.dropStart? start name = some rest →
      nameAfter? ("STRATA_" ++ start) key = some (Text.lowerAscii rest) := by
    intro start rest hrest
    rw [nameAfter?_eq_some_iff, hkey, Text.dropStart?_eq_some_iff.mp hrest]
    exact ⟨rest, by rw [String.append_assoc], rfl⟩
  rw [ofName?] at h
  split at h
  · rename_i rest hrest
    cases h
    exact hstart "HOSTED_" rest hrest
  · split at h
    · rename_i rest hrest
      cases h
      exact hstart "HOST_" rest hrest
    · split at h
      · rename_i rest hrest
        cases h
        exact hstart "VAR_" rest hrest
      · split at h
        · rename_i hhome
          cases h
          rw [hkey, hhome]
          rfl
        · split at h
          · rename_i hsynthesizer
            cases h
            rw [hkey, hsynthesizer]
            rfl
          · cases h

/-- The starts of the names exclude each other. -/
theorem ofKey?_of_isFor
    {key : String}
    {setting : Setting}
    (h : setting.IsFor key) :
    ofKey? key = some setting := by
  cases setting with
  | home =>
      cases h
      rfl
  | synthesizer =>
      cases h
      rfl
  | host field =>
      obtain ⟨rest, rfl, rfl⟩ := nameAfter?_eq_some_iff.mp h
      simp [ofKey?, ofName?, Text.dropStart?, Text.afterStart?]
  | hosted field =>
      obtain ⟨rest, rfl, rfl⟩ := nameAfter?_eq_some_iff.mp h
      simp [ofKey?, ofName?, Text.dropStart?, Text.afterStart?]
  | «variable» name =>
      obtain ⟨rest, rfl, rfl⟩ := nameAfter?_eq_some_iff.mp h
      simp [ofKey?, ofName?, Text.dropStart?, Text.afterStart?]

theorem ofKey?_eq_some_iff
    {key : String}
    {setting : Setting} :
    ofKey? key = some setting ↔ setting.IsFor key :=
  ⟨isFor_of_ofKey?, ofKey?_of_isFor⟩

end Setting

/-! ## Fields of scopes -/

/-- The value that a label stands for has the label that was written, in small letters. -/
theorem Choices.label_of_ofText
    {α : Type}
    {c : Choices α}
    (hlabels : ∀ o ∈ c.options, c.label o.2 = Text.lowerAscii o.1)
    {kind text : String}
    {a : α}
    (h : c.ofText kind text = .ok a) :
    c.label a = Text.lowerAscii (Text.trim text) := by
  rw [ofText] at h
  split at h
  · rename_i o hfound
    cases h
    rw [hlabels o (List.mem_of_find?_eq_some hfound)]
    simpa [Shape.equalsIgnoringCase] using List.find?_some hfound
  · cases h

namespace Scope

/-- The text of a field that is set. -/
def text? (s : Scope) : String → Option String
  | "id" => s.id
  | "organization" => s.organization
  | "account" => s.account
  | "region" => s.region
  | "name" => s.name
  | "alias" => s.shortName
  | "environment" => s.environment.map Environment.label
  | "version" => s.version.map Version.label
  | "domain" => s.domain
  | _ => none

/-- What a field holds after it was set to a value: an environment or a version is told by its
label. -/
def fieldText (field value : String) : String :=
  if field = "environment" ∨ field = "version" then Text.lowerAscii (Text.trim value) else value

/-- The fields that are set are the ones that have a text. -/
theorem last?_values
    (s : Scope)
    (field : String) :
    Entries.last? field s.values = s.text? field := by
  have hpresent : ∀ e : String × Option String,
      ((e.2.map fun value => (e.1, value)).bind fun e => if e.1 = field then some e.2 else none) =
        if field = e.1 then e.2 else none := by
    rintro ⟨name, value?⟩
    cases value? <;> simp [@eq_comm _ name]
  rw [Entries.last?, values, lastSome?_filterMap]
  simp only [hpresent, lastSome?_cons, lastSome?_nil]
  fun_cases text? s field <;> simp_all

/-- A field that was set holds what it was set to. -/
theorem text?_set_self
    {s s' : Scope}
    {field value : String}
    (h : s.set field value = .ok s') :
    s'.text? field = some (fieldText field value) := by
  unfold set at h
  split at h
  -- An environment and a version are read from the value; the other fields take it as it is.
  case h_7 =>
    obtain ⟨e, he, rfl⟩ := map_eq_ok_iff.mp h
    have hlabel : e.label = Text.lowerAscii (Text.trim value) :=
      Choices.label_of_ofText (c := Environment.choices) (by decide) he
    simp [text?, fieldText, hlabel]
  case h_8 =>
    obtain ⟨v, hv, rfl⟩ := map_eq_ok_iff.mp h
    have hlabel : v.label = Text.lowerAscii (Text.trim value) :=
      Choices.label_of_ofText (c := Version.choices) (by decide) hv
    simp [text?, fieldText, hlabel]
  case h_10 => cases h
  all_goals
    cases h
    simp [text?, fieldText]

/-- The other fields stay as they are. -/
theorem text?_set_of_ne
    {s s' : Scope}
    {field other value : String}
    (h : s.set field value = .ok s')
    (hne : other ≠ field) :
    s'.text? other = s.text? other := by
  unfold set at h
  split at h
  case h_7 =>
    obtain ⟨e, _, rfl⟩ := map_eq_ok_iff.mp h
    fun_cases text? s other <;> simp_all [text?]
  case h_8 =>
    obtain ⟨v, _, rfl⟩ := map_eq_ok_iff.mp h
    fun_cases text? s other <;> simp_all [text?]
  case h_10 => cases h
  all_goals
    cases h
    fun_cases text? s other <;> simp_all [text?]

end Scope

/-! ## Overlays -/

namespace Context

/-- A context with one setting set to a value. -/
inductive Applied (c : Context) : Setting → String → Context → Prop
  | host
      {field value : String}
      {s : Scope} :
      c.host.set field value = .ok s →
      Applied c (.host field) value { c with host := s }
  | hosted
      {field value : String}
      {s : Scope} :
      c.hosted.set field value = .ok s →
      Applied c (.hosted field) value { c with hosted := s }
  | extra (name value : String) :
      Applied c (.variable name) value (c.withVariable name (.text value))
  | home (value : String) :
      Applied c .home value (c.withHome value)
  | synthesizer (value : String) :
      Applied c .synthesizer value (c.withSynthesizer value)

theorem applied_of_apply
    {c c' : Context}
    {setting : Setting}
    {value : String}
    (h : c.apply setting value = .ok c') :
    c.Applied setting value c' := by
  cases setting with
  | host field =>
      obtain ⟨s, hs, rfl⟩ := map_eq_ok_iff.mp h
      exact .host hs
  | hosted field =>
      obtain ⟨s, hs, rfl⟩ := map_eq_ok_iff.mp h
      exact .hosted hs
  | «variable» name =>
      cases h
      exact .extra name value
  | home =>
      cases h
      exact .home value
  | synthesizer =>
      cases h
      exact .synthesizer value

section View

variable {β : Type}
variable {setting : Setting}
variable {view : Context → Option β}
variable {read : String → β}

/-- What is read off a context changes when one setting is set, and only then. -/
structure ReadsOff (setting : Setting) (view : Context → Option β) (read : String → β) : Prop where
  set : ∀ {c c' : Context} {value : String}, c.Applied setting value c' →
    view c' = some (read value)
  keep : ∀ {c c' : Context} {other : Setting} {value : String}, other ≠ setting →
    c.Applied other value c' → view c' = view c

/-- The value of the last environment variable for a setting. -/
def lastFor? (setting : Setting) (vars : List (String × String)) : Option String :=
  lastSome? (fun e => if Setting.ofKey? e.1 = some setting then some e.2 else none) vars

theorem view_overlayOne
    (hview : ReadsOff setting view read)
    {c c' : Context}
    {entry : String × String}
    (h : c.overlayOne entry = .ok c') :
    view c' = ((if Setting.ofKey? entry.1 = some setting then some entry.2 else none).map read).or
      (view c) := by
  rw [overlayOne] at h
  cases hkey : Setting.ofKey? entry.1 with
  | none =>
      rw [hkey] at h
      cases h
      simp
  | some other =>
      rw [hkey] at h
      have happlied := applied_of_apply h
      by_cases hother : other = setting
      · subst hother
        simp [hview.set happlied]
      · simp [hother, hview.keep hother happlied]

/-- What is read off a context after an overlay comes from the last variable for the setting. -/
theorem view_overlay
    (hview : ReadsOff setting view read)
    {c c' : Context}
    {vars : List (String × String)}
    (h : c.overlay vars = .ok c') :
    view c' = ((lastFor? setting vars).map read).or (view c) := by
  induction vars generalizing c with
  | nil =>
      cases h
      rfl
  | cons entry rest ih =>
      rw [overlay] at h
      split at h
      · rename_i c₁ hone
        rw [ih h, view_overlayOne hview hone, lastFor?, lastFor?, lastSome?_cons, Option.map_or,
          Option.or_assoc]
      · cases h

end View

/-! ## Settings after an overlay -/

/-- The value of the last environment variable with a name after a start, in capital or small ASCII
letters. -/
def lastNamed? (start name : String) (vars : List (String × String)) : Option String :=
  lastSome? (fun e => if nameAfter? start e.1 = some name then some e.2 else none) vars

variable {c c' : Context}
variable {vars : List (String × String)}

theorem overlay_home
    (h : c.overlay vars = .ok c') :
    c'.home = (Entries.last? "STRATA_HOME" vars).or c.home := by
  have hview : ReadsOff .home (fun c => c.home) id := by
    refine ⟨fun h => ?_, fun hne h => ?_⟩
    · cases h
      rfl
    · cases h with
      | home value => exact absurd rfl hne
      | _ => rfl
  simpa [lastFor?, Entries.last?, Setting.ofKey?_eq_some_iff, Setting.IsFor] using
    view_overlay hview h

theorem overlay_synthesizer
    (h : c.overlay vars = .ok c') :
    c'.synthesizer = (Entries.last? "STRATA_SYNTHESIZER" vars).or c.synthesizer := by
  have hview : ReadsOff .synthesizer (fun c => c.synthesizer) id := by
    refine ⟨fun h => ?_, fun hne h => ?_⟩
    · cases h
      rfl
    · cases h with
      | synthesizer value => exact absurd rfl hne
      | _ => rfl
  simpa [lastFor?, Entries.last?, Setting.ofKey?_eq_some_iff, Setting.IsFor] using
    view_overlay hview h

theorem overlay_extras
    (h : c.overlay vars = .ok c')
    (name : String) :
    Entries.find? name c'.extras =
      ((lastNamed? "STRATA_VAR_" name vars).map Tree.text).or (Entries.find? name c.extras) := by
  have hview : ReadsOff (.variable name) (fun c => Entries.find? name c.extras) Tree.text := by
    refine ⟨fun h => ?_, fun hne h => ?_⟩
    · cases h
      exact Entries.find?_insert_self _ _ _
    · cases h with
      | extra other value =>
          have hother : name ≠ other := fun heq => hne (heq ▸ rfl)
          exact Entries.find?_insert_of_ne _ _ hother
      | _ => rfl
  simpa [lastFor?, lastNamed?, Setting.ofKey?_eq_some_iff, Setting.IsFor] using
    view_overlay hview h

theorem overlay_host
    (h : c.overlay vars = .ok c')
    (field : String) :
    c'.host.text? field =
      ((lastNamed? "STRATA_HOST_" field vars).map (Scope.fieldText field)).or
        (c.host.text? field) := by
  have hview : ReadsOff (.host field) (fun c => c.host.text? field) (Scope.fieldText field) := by
    refine ⟨fun h => ?_, fun hne h => ?_⟩
    · cases h with
      | host hset => exact Scope.text?_set_self hset
    · cases h with
      | @host other value s hset =>
          have hother : field ≠ other := fun heq => hne (heq ▸ rfl)
          exact Scope.text?_set_of_ne hset hother
      | _ => rfl
  simpa [lastFor?, lastNamed?, Setting.ofKey?_eq_some_iff, Setting.IsFor] using
    view_overlay hview h

theorem overlay_hosted
    (h : c.overlay vars = .ok c')
    (field : String) :
    c'.hosted.text? field =
      ((lastNamed? "STRATA_HOSTED_" field vars).map (Scope.fieldText field)).or
        (c.hosted.text? field) := by
  have hview : ReadsOff (.hosted field) (fun c => c.hosted.text? field)
      (Scope.fieldText field) := by
    refine ⟨fun h => ?_, fun hne h => ?_⟩
    · cases h with
      | hosted hset => exact Scope.text?_set_self hset
    · cases h with
      | @hosted other value s hset =>
          have hother : field ≠ other := fun heq => hne (heq ▸ rfl)
          exact Scope.text?_set_of_ne hset hother
      | _ => rfl
  simpa [lastFor?, lastNamed?, Setting.ofKey?_eq_some_iff, Setting.IsFor] using
    view_overlay hview h

/-- Further variables stay in key order. -/
theorem overlay_ordered
    (h : c.overlay vars = .ok c')
    (hordered : c.extras.Ordered) :
    c'.extras.Ordered := by
  induction vars generalizing c with
  | nil =>
      cases h
      exact hordered
  | cons entry rest ih =>
      rw [overlay] at h
      split at h
      · rename_i c₁ hone
        refine ih h ?_
        rw [overlayOne] at hone
        split at hone
        · cases applied_of_apply hone with
          | extra name value => exact hordered.insert name _
          | _ => exact hordered
        · cases hone
          exact hordered
      · cases h

/-! ## Variables of a context -/

/-- The text under a name, given the home, the name of the synthesizer and the fields of both
sides. -/
def textOf? (home : String) (synthesizer : Option String) (host hosted : String → Option String)
    (key : String) : Option String :=
  if key = "home" then some home
  else if key = "synthesizer:name" then synthesizer
  else
    match Text.dropStart? "host:" key with
    | some field => host field
    | none => (Text.dropStart? "hosted:" key).bind hosted

/-- The text that the settings of a context give a name. -/
def ownText? (c : Context) (key : String) : Option String :=
  textOf? (c.home.getD "/") c.synthesizerName? c.host.text? c.hosted.text? key

theorem last?_scopeVariables
    (side : String)
    (s : Scope)
    (key : String) :
    Entries.last? key (scopeVariables side s) =
      ((Text.dropStart? (side ++ ":") key).bind s.text?).map Tree.text := by
  rw [scopeVariables, Entries.last?, lastSome?_map]
  cases hdrop : Text.dropStart? (side ++ ":") key with
  | none =>
      have hother : ∀ field, side ++ ":" ++ field ≠ key := by
        intro field heq
        rw [Text.dropStart?_eq_some_iff.mpr heq.symm] at hdrop
        cases hdrop
      simp [hother, lastSome?]
  | some field =>
      have hkey : key = side ++ ":" ++ field := Text.dropStart?_eq_some_iff.mp hdrop
      rw [Option.bind_some, ← Scope.last?_values, Entries.last?, map_lastSome?, hkey]
      simp only [String.append_right_inj]
      congr 1
      funext e
      split <;> rfl

/-- The names of the variables exclude each other. -/
theorem find?_ownVariables
    (c : Context)
    (key : String) :
    Entries.find? key c.ownVariables = (c.ownText? key).map Tree.text := by
  have hsynthesizer : Entries.last? key
      (c.synthesizerName?.toList.map fun name => ("synthesizer:name", Tree.text name)) =
      if key = "synthesizer:name" then c.synthesizerName?.map Tree.text else none := by
    cases c.synthesizerName? <;> simp [Entries.last?, @eq_comm _ key]
  have hhome : Entries.last? key [("home", Tree.text (c.home.getD "/"))] =
      if key = "home" then some (Tree.text (c.home.getD "/")) else none := by
    simp [Entries.last?, @eq_comm _ key]
  rw [ownVariables, Entries.find?_ofList, Entries.last?_append, Entries.last?_append,
    Entries.last?_append, last?_scopeVariables, last?_scopeVariables, hsynthesizer, hhome, ownText?,
    textOf?]
  by_cases hkey : key = "home"
  · simp [hkey, Text.dropStart?, Text.afterStart?]
  · by_cases hname : key = "synthesizer:name"
    · simp [hname, Text.dropStart?, Text.afterStart?]
    · rw [if_neg hkey, if_neg hname, if_neg hkey, if_neg hname]
      cases hhost : Text.dropStart? "host:" key with
      | none => simp [hhost]
      | some field =>
          have hhosted : Text.dropStart? "hosted:" key = none := by
            rw [Text.dropStart?_eq_some_iff.mp hhost]
            simp [Text.dropStart?, Text.afterStart?]
          simp [hhost, hhosted]

/-- The variables of a context: the further ones go before those that the settings give. -/
theorem find?_defaults
    (hordered : c.extras.Ordered)
    (key : String) :
    Entries.find? key c.defaults =
      (Entries.find? key c.extras).or ((c.ownText? key).map Tree.text) := by
  rw [defaults, Variables.merge, Entries.find?_insertAll, hordered.last?_eq, find?_ownVariables]

end Context
end Provision
