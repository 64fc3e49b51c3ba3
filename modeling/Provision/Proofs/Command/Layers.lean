import Provision.Command.Workspace
import Provision.Proofs.Shape.Reading
import Provision.Proofs.Template.Overlay

/-!
# Layers of variables

The documents of a command are rendered with variables from four places: the overrides among its
arguments, the environment variables for further variables, the further variables of its context
file, and the settings of that file with the environment variables that replace them.  A value
counts only if no place before gives one, and in each place the last value under a name counts.

**Results.**
* `Workspace.ownText?_overlay`: what the settings give once the environment variables are laid over
  them.
* `Workspace.source_variables`: the value under each name, for every context file, environment and
  list of overrides that a command accepts.
-/

namespace Provision

/-! ## Rendering -/

/-- The variables that the documents of a source are rendered with. -/
def Source.variables (s : Source) : Variables := s.context.defaults.merge s.overrides

namespace Workspace

/-! ## Overrides -/

/-- The name and the value of an override: what stands before the first equals sign, without the
blanks around it, and all that comes after it. -/
def overrideOf (written : String) : String × Tree :=
  (Text.trim (String.ofList (written.toList.takeWhile (· ≠ '='))),
    .text (String.ofList ((written.toList.dropWhile (· ≠ '=')).drop 1)))

/-- The first cut is at the first separator. -/
theorem first_cut
    {sep : Char}
    {cs before after : List Char}
    {later : List (List Char × List Char)}
    (h : Text.cuts sep cs = (before, after) :: later) :
    before = cs.takeWhile (· ≠ sep) ∧ after = (cs.dropWhile (· ≠ sep)).drop 1 := by
  induction cs generalizing before later with
  | nil => cases h
  | cons c cs ih =>
      by_cases hsep : c = sep
      · simp only [Text.cuts, if_pos hsep, List.cons.injEq, Prod.mk.injEq] at h
        simp [← h.1.1, ← h.1.2, hsep]
      · simp only [Text.cuts, if_neg hsep, List.map_eq_cons_iff, Prod.mk.injEq] at h
        obtain ⟨⟨before, after⟩, later, hcuts, ⟨rfl, rfl⟩, _⟩ := h
        simpa [hsep] using ih hcuts

theorem readOverride_eq_ok
    {written : String}
    {e : String × Tree}
    (h : readOverride written = .ok e) :
    e = overrideOf written := by
  rw [readOverride] at h
  split at h
  · rename_i name value later hcuts
    cases h
    rw [overrideOf, ← (first_cut hcuts).1, ← (first_cut hcuts).2]
  · cases h

theorem readOverrides_eq_ok
    {written : List String}
    {overrides : Variables}
    (h : readOverrides written = .ok overrides) :
    overrides = Entries.ofList (written.map overrideOf) := by
  obtain ⟨pairs, hpairs, hoverrides⟩ := bind_eq_ok_iff.mp h
  cases hoverrides
  congr 1
  clear h
  induction written generalizing pairs with
  | nil =>
      cases hpairs
      rfl
  | cons first rest ih =>
      rw [List.mapM_cons] at hpairs
      obtain ⟨e, he, hpairs⟩ := bind_eq_ok_iff.mp hpairs
      obtain ⟨es, hes, hpairs⟩ := bind_eq_ok_iff.mp hpairs
      cases hpairs
      rw [List.map_cons, ← readOverride_eq_ok he, ← ih es hes]

/-! ## Context files -/

/-- A map that was read is in key order, whatever it was read from. -/
theorem ordered_of_readEntries
    {α : Type}
    {s : Shape α}
    {t : Tree}
    {es : Entries α}
    (h : (Shape.entries s).read t = .ok es) :
    es.Ordered := by
  obtain ⟨entries, _, hread⟩ := bind_eq_ok_iff.mp h
  obtain ⟨pairs, _, rfl⟩ := Shape.readEntries_eq_ok_iff.mp hread
  exact Entries.ofList_ordered pairs

theorem ordered_of_readContext
    {t : Tree}
    {c : Context}
    (h : Context.shape.read t = .ok c) :
    c.extras.Ordered := by
  obtain ⟨_, _, _, _, ⟨t?, hextras⟩, _⟩ := Shape.given_of_read_record h
  cases t? with
  | none =>
      have hnone : [] = c.extras := Option.some.inj hextras
      rw [← hnone]
      exact Entries.ordered_nil
  | some t => exact ordered_of_readEntries hextras

theorem ordered_of_savedContext
    {disk : Disk}
    {path : Option String}
    {saved : Context}
    (h : savedContext disk path = .ok saved) :
    saved.extras.Ordered := by
  cases path with
  | none =>
      cases h
      exact Entries.ordered_nil
  | some path =>
      have hload := mapError_eq_ok_iff.mp h
      cases htext : disk.text path with
      | error fault =>
          rw [htext] at hload
          cases hload
      | ok text =>
          rw [htext] at hload
          obtain ⟨t, _, hread⟩ := bind_eq_ok_iff.mp hload
          exact ordered_of_readContext (mapError_eq_ok_iff.mp hread)

/-! ## Settings -/

/-- The text of a field of one side: the one of the last environment variable for the field, or else
the one that was saved. -/
def sideText? (start : String) (saved : Scope) (vars : List (String × String)) (field : String) :
    Option String :=
  ((Context.lastNamed? start field vars).map (Scope.fieldText field)).or (saved.text? field)

/-- The text under a name that the settings give, once those of the environment have replaced those
that were saved. -/
def settingText? (saved : Context) (vars : List (String × String)) (key : String) :
    Option String :=
  let host := sideText? "STRATA_HOST_" saved.host vars
  Context.textOf? (((Entries.last? "STRATA_HOME" vars).or saved.home).getD "/")
    (((Entries.last? "STRATA_SYNTHESIZER" vars).or saved.synthesizer).or (host "id"))
    host (sideText? "STRATA_HOSTED_" saved.hosted vars) key

theorem ownText?_overlay
    {saved c : Context}
    {vars : List (String × String)}
    (h : saved.overlay vars = .ok c)
    (key : String) :
    c.ownText? key = settingText? saved vars key := by
  have hhost : c.host.text? = sideText? "STRATA_HOST_" saved.host vars :=
    funext (Context.overlay_host h)
  have hhosted : c.hosted.text? = sideText? "STRATA_HOSTED_" saved.hosted vars :=
    funext (Context.overlay_hosted h)
  have hid : c.host.id = sideText? "STRATA_HOST_" saved.host vars "id" := congrFun hhost "id"
  rw [Context.ownText?, settingText?, Context.synthesizerName?, Context.overlay_home h,
    Context.overlay_synthesizer h, hid, hhost, hhosted]

/-! ## All layers -/

/-- Every document of a command is rendered with one map of variables, whatever it asks for.  The
value under a name is the one of the last override for it, or else of the last environment variable
for a further variable of this name, or else of the further variable that was saved, or else of the
settings; and there is always a home. -/
theorem source_variables
    {disk : Disk}
    {a : SourceArguments}
    {vars : List (String × String)}
    {s : Source}
    (h : source disk a vars = .ok s) :
    ∃ saved, savedContext disk a.context = .ok saved ∧
      (∀ document, s.resolve document =
        (do
          let r := s.request document
          r.check
          let text ← s.store r.location
          return ⟨r.location, Template.render text s.variables⟩ :
            Except TemplateError Resolved).mapError .template) ∧
      (∀ key, Entries.find? key s.variables =
        (Entries.last? key (a.overrides.map overrideOf)).or
          (((Context.lastNamed? "STRATA_VAR_" key vars).map Tree.text).or
            ((Entries.find? key saved.extras).or
              ((settingText? saved vars key).map Tree.text)))) ∧
      (Entries.find? "home" s.variables).isSome := by
  obtain ⟨c, hc, h⟩ := bind_eq_ok_iff.mp h
  obtain ⟨e, _, h⟩ := bind_eq_ok_iff.mp h
  obtain ⟨v, _, h⟩ := bind_eq_ok_iff.mp h
  obtain ⟨overrides, hoverrides, h⟩ := bind_eq_ok_iff.mp h
  cases h
  obtain ⟨saved, hsaved, hoverlay⟩ := bind_eq_ok_iff.mp hc
  have hoverlay : saved.overlay vars = .ok c := mapError_eq_ok_iff.mp hoverlay
  have hordered : c.extras.Ordered :=
    Context.overlay_ordered hoverlay (ordered_of_savedContext hsaved)
  have hlayers : ∀ key, Entries.find? key (c.defaults.merge overrides) =
      (Entries.last? key (a.overrides.map overrideOf)).or
        (((Context.lastNamed? "STRATA_VAR_" key vars).map Tree.text).or
          ((Entries.find? key saved.extras).or
            ((settingText? saved vars key).map Tree.text))) := by
    intro key
    rw [Variables.merge, Entries.find?_insertAll, readOverrides_eq_ok hoverrides,
      (Entries.ofList_ordered _).last?_eq, Entries.find?_ofList, Context.find?_defaults hordered,
      Context.overlay_extras hoverlay, ownText?_overlay hoverlay, Option.or_assoc]
  refine ⟨saved, hsaved, fun document => rfl, hlayers, ?_⟩
  have hhome := hlayers "home"
  rw [settingText?, Context.textOf?, if_pos rfl] at hhome
  show (Entries.find? "home" (c.defaults.merge overrides)).isSome
  simp [hhome]

/-! ## A name in several layers -/

/-- A disk whose context file sets a home, two fields of the host, and two further variables. -/
def layeredDisk : Disk where
  text _ := .ok
    ("\x7b\"home\": \"/srv\", \"host\": \x7b\"id\": \"ops\", \"version\": \"v2\"\x7d, " ++
      "\"variables\": \x7b\"team\": \"core\", \"zone\": \"b\"\x7d\x7d")
  store _ := Store.ofTexts []

def layeredArguments : SourceArguments where
  resources := "resources"
  context := some "context.json"
  environment := none
  version := none
  overrides := ["tenant=first", " tenant =last=one"]

def layeredVariables : List (String × String) :=
  [("STRATA_HOST_ENVIRONMENT", " PRODUCTION "), ("STRATA_VAR_TENANT", "other"),
    ("STRATA_VAR_Zone", "a"), ("STRATA_HOST_VERSION", "v3"), ("PATH", "/bin")]

/-- The overrides count before the environment, and the environment before the file. -/
theorem layered_source_variables :
    ∃ s, source layeredDisk layeredArguments layeredVariables = .ok s ∧
      Entries.find? "tenant" s.variables = some (.text "last=one") ∧
      Entries.find? "zone" s.variables = some (.text "a") ∧
      (Entries.find? "team" s.variables).map Variables.valueText = some "core" ∧
      Entries.find? "host:environment" s.variables = some (.text "production") ∧
      Entries.find? "host:version" s.variables = some (.text "v3") ∧
      Entries.find? "synthesizer:name" s.variables = some (.text "ops") ∧
      Entries.find? "home" s.variables = some (.text "/srv") ∧
      Entries.find? "hosted:id" s.variables = none := by
  have haccepted : (source layeredDisk layeredArguments layeredVariables).toOption.isSome := by
    decide +kernel
  have hfile : ((savedContext layeredDisk layeredArguments.context).toOption.map fun c =>
      (c.host, c.hosted, c.home, c.synthesizer)) =
      some ({ Scope.empty with id := some "ops", version := some .v2 }, .empty, some "/srv",
        none) := by
    decide +kernel
  have hextras : ((savedContext layeredDisk layeredArguments.context).toOption.map fun c =>
      Entries.mapValues Variables.valueText c.extras) =
      some [("team", "core"), ("zone", "b")] := by
    decide +kernel
  cases hs : source layeredDisk layeredArguments layeredVariables with
  | error e =>
      rw [hs] at haccepted
      cases haccepted
  | ok s =>
      obtain ⟨saved, hsaved, _, hlayers, _⟩ := source_variables hs
      obtain ⟨host, hosted, home, synthesizer, extras⟩ := saved
      simp only [hsaved, Except.toOption, Option.map_some, Option.some.injEq,
        Prod.mk.injEq] at hfile
      simp only [hsaved, Except.toOption, Option.map_some, Option.some.injEq, Prod.mk.injEq,
        Entries.mapValues, List.map_eq_cons_iff, List.map_eq_nil_iff] at hextras
      obtain ⟨rfl, rfl, rfl, rfl⟩ := hfile
      obtain ⟨⟨_, team⟩, _, rfl, ⟨rfl, hteam⟩, ⟨_, zone⟩, _, rfl, ⟨rfl, _⟩, rfl⟩ := hextras
      refine ⟨s, rfl, ?_⟩
      simp only [hlayers]
      exact ⟨rfl, rfl, congrArg some hteam, rfl, rfl, rfl, rfl, rfl⟩

end Workspace
end Provision
