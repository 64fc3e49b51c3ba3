import Provision.Command.Course
import Provision.Proofs.Graph.Declared
import Provision.Proofs.Plan.Cut
import Provision.Proofs.Stack.DryRun
import Provision.Proofs.Stack.Refusal

/-!
# Planning and applying

Both commands read the same stack in the same way and make the same plan of it.  They part only
after that: one lists the plan, the other builds it as a dry run.

**Before they part.**  Whatever goes wrong goes wrong for both, and none of it is a failure of a
build.

**After they parted.**  Listing cannot go wrong.  The plan was made of the build order, so it is
accepted, and the builder takes every unit; so there is a report, and either all units have handles,
or the command ends as a failed build.

**Results.**
* `Workspace.source_fails`, `Workspace.planned_fails`: what goes wrong before a build.
* `Workspace.planned_accepted`: a plan that was made is accepted.
* `Command.plan_apply_agree`: how the two commands end.
-/

namespace Provision

open Stack

/-! ## Errors before a build -/

/-- The error does not come from a build, and the process tells so. -/
def CommandError.BeforeBuild (e : CommandError) : Prop :=
  e.exit = .generalError ∨ e.exit = .invalidInput

theorem ConfigError.exit_cases
    (e : ConfigError) :
    e.exit = .generalError ∨ e.exit = .invalidInput := by
  cases e with
  | unreadable _ _ => exact Or.inl rfl
  | _ => exact Or.inr rfl

theorem TemplateError.exit_cases
    (e : TemplateError) :
    e.exit = .generalError ∨ e.exit = .invalidInput := by
  cases e with
  | unreadable _ _ => exact Or.inl rfl
  | config e => exact e.exit_cases
  | _ => exact Or.inr rfl

theorem BuildError.exit_of_isValidation
    {e : BuildError}
    (h : e.isValidation = true) :
    e.exit = .invalidInput := by
  unfold exit
  exact if_pos h

theorem Plan.cut_fails
    (g : Graph)
    (ceiling : Nat) :
    FailsWith (fun e => e.isValidation = true) (cut g ceiling) := by
  rw [cut]
  split
  · exact .error rfl
  · exact .ok _

namespace Workspace

theorem ofTemplate_fails
    {α : Type}
    (r : Except TemplateError α) :
    FailsWith CommandError.BeforeBuild (ofTemplate r) :=
  .mapError fun e _ => e.exit_cases

theorem ofBuild_fails
    {α : Type}
    {r : Except BuildError α}
    (h : FailsWith (fun e => e.isValidation = true) r) :
    FailsWith CommandError.BeforeBuild (ofBuild r) :=
  .mapError fun e he => Or.inr (BuildError.exit_of_isValidation (h e he))

theorem context_fails
    (disk : Disk)
    (a : SourceArguments)
    (vars : List (String × String)) :
    FailsWith CommandError.BeforeBuild (context disk a vars) := by
  refine FailsWith.bind ?_ fun saved _ => ofTemplate_fails _
  rw [savedContext.eq_def]
  split
  · exact .ok _
  · exact .mapError fun e _ => e.exit_cases

theorem settle_fails
    {α : Type}
    (name : String)
    (read : String → Except TemplateError α)
    (given : Option String)
    (ofHost : Option α) :
    FailsWith CommandError.BeforeBuild (settle name read given ofHost) := by
  rw [settle.eq_def]
  split
  · exact ofTemplate_fails _
  · exact .ok _
  · exact .error (Or.inr rfl)

theorem readOverrides_fails
    (written : List String) :
    FailsWith CommandError.BeforeBuild (readOverrides written) := by
  refine FailsWith.bind (.mapM fun text _ => ?_) fun pairs _ => .ok _
  rw [readOverride]
  split
  · exact .ok _
  · exact .error (Or.inr rfl)

theorem source_fails
    (disk : Disk)
    (a : SourceArguments)
    (vars : List (String × String)) :
    FailsWith CommandError.BeforeBuild (source disk a vars) :=
  (context_fails disk a vars).bind fun _ _ => (settle_fails _ _ _ _).bind fun _ _ =>
    (settle_fails _ _ _ _).bind fun _ _ => (readOverrides_fails _).bind fun _ _ => .ok _

/-- A stack that cannot be read is an error of a document or of a manifest. -/
theorem units_fails
    (s : Source)
    (a : StackArguments) :
    FailsWith (fun e => e.OfDocument ∨ ∃ reason, e = .invalidManifest a.document reason)
      (units s a) := by
  rw [units]
  split
  · exact ((Platform.load_fails s a.document).imp fun _ h => Or.inl h).bind fun _ _ => .ok _
  · exact (Manifest.load_fails s a.document).bind fun m _ =>
      ((m.resources_fails s).imp fun _ h => Or.inl h).bind fun _ _ => .ok _

theorem planUnder_fails
    (g : Graph)
    (ceiling : Option Nat) :
    FailsWith (fun e => e.isValidation = true) (planUnder g ceiling) := by
  cases ceiling with
  | none => exact .ok _
  | some ceiling => exact Plan.cut_fails g ceiling

theorem planned_fails
    (s : Source)
    (a : StackArguments) :
    FailsWith CommandError.BeforeBuild (planned s a) := by
  have hunits : FailsWith CommandError.BeforeBuild ((units s a).mapError .stack) := by
    refine .mapError fun e h => ?_
    rcases units_fails s a e h with ⟨fault, rfl⟩ | ⟨reason, rfl⟩
    · exact fault.exit_cases
    · exact Or.inr rfl
  exact hunits.bind fun _ _ => (ofBuild_fails (Graph.ofUnits_fails _)).bind fun g _ =>
    (ofBuild_fails (planUnder_fails g _)).bind fun _ _ => .ok _

/-! ## Plans that were made -/

theorem planUnder_accepted
    {g : Graph}
    {ceiling : Option Nat}
    {p : Plan}
    (h : planUnder g ceiling = .ok p) :
    p.check g = .ok () := by
  cases ceiling with
  | none =>
      cases h
      exact Plan.single_accepted g
  | some ceiling => exact Plan.cut_accepted h

theorem planned_eq_ok_iff
    {s : Source}
    {a : StackArguments}
    {g : Graph}
    {p : Plan} :
    planned s a = .ok (g, p) ↔
      ∃ ceiling, units s a = .ok (g.units, ceiling) ∧ planUnder g (a.ceiling.or ceiling) = .ok p := by
  rw [planned, bind_eq_ok_iff]
  constructor
  · rintro ⟨⟨us, ceiling⟩, hunits, h⟩
    obtain ⟨g', hg, h⟩ := bind_eq_ok_iff.mp h
    obtain ⟨p', hp, h⟩ := bind_eq_ok_iff.mp h
    cases h
    obtain rfl := Graph.ofUnits_eq_ok_iff.mp (mapError_eq_ok_iff.mp hg)
    exact ⟨ceiling, mapError_eq_ok_iff.mp hunits, mapError_eq_ok_iff.mp hp⟩
  · rintro ⟨ceiling, hunits, hp⟩
    refine ⟨(g.units, ceiling), mapError_eq_ok_iff.mpr hunits, ?_⟩
    refine bind_eq_ok_iff.mpr ⟨g, mapError_eq_ok_iff.mpr (Graph.ofUnits_eq_ok_iff.mpr rfl), ?_⟩
    exact bind_eq_ok_iff.mpr ⟨p, mapError_eq_ok_iff.mpr hp, rfl⟩

end Workspace

/-! ## The two commands -/

namespace Command

variable {disk : Disk} {vars : List (String × String)} {stack : StackArguments} {s : Source}
  {g : Graph} {p : Plan} {e : CommandError}

/-- Either a plan is made, or there is an error that does not come from a build. -/
theorem planned_or_failed
    (disk : Disk)
    (vars : List (String × String))
    (stack : StackArguments) :
    (∃ s g p, Workspace.source disk stack.source vars = .ok s ∧
      Workspace.planned s stack = .ok (g, p)) ∨
    ∃ e : CommandError, e.BeforeBuild ∧ (Workspace.source disk stack.source vars = .error e ∨
      ∃ s, Workspace.source disk stack.source vars = .ok s ∧
        Workspace.planned s stack = .error e) := by
  cases hsource : Workspace.source disk stack.source vars with
  | error e =>
      exact Or.inr ⟨e, Workspace.source_fails disk stack.source vars e hsource, Or.inl rfl⟩
  | ok s =>
      cases hplanned : Workspace.planned s stack with
      | error e =>
          exact Or.inr ⟨e, Workspace.planned_fails s stack e hplanned, Or.inr ⟨s, rfl, hplanned⟩⟩
      | ok plan => exact Or.inl ⟨s, plan.1, plan.2, rfl, hplanned⟩

/-- Applying without a report file ends with the outcome of the build. -/
theorem course_apply_eq
    (stamp : Stamp)
    (limit : Option Nat) :
    course disk vars stamp (.apply stack true limit none) = .finish
      (match (do
          let s ← Workspace.source disk stack.source vars
          built s stack limit stamp) with
        | .error e => .failure e
        | .ok r => reported r) := by
  simp only [course]
  cases (do
    let s ← Workspace.source disk stack.source vars
    built s stack limit stamp) with
  | error e => rfl
  | ok r => rfl

/-- A plan that was made is listed. -/
theorem course_plan_of_planned
    (hsource : Workspace.source disk stack.source vars = .ok s)
    (hplanned : Workspace.planned s stack = .ok (g, p))
    (stamp : Stamp)
    (json : Bool) :
    ∃ output, course disk vars stamp (.plan stack json) = .finish (.success output) := by
  obtain ⟨output, hlisted⟩ : ∃ output, listed s stack json = .ok output :=
    ⟨_, bind_eq_ok_iff.mpr ⟨(g, p), hplanned, rfl⟩⟩
  refine ⟨output, ?_⟩
  rw [course, bind_eq_ok_iff.mpr ⟨s, hsource, hlisted⟩]
  rfl

/-- A plan that was made is built, and the context decides whether all units have handles. -/
theorem course_apply_of_planned
    (hsource : Workspace.source disk stack.source vars = .ok s)
    (hplanned : Workspace.planned s stack = .ok (g, p))
    (stamp : Stamp)
    {limit : Option Nat}
    (hlimit : limit ≠ some 0) :
    ∃ r, course disk vars stamp (.apply stack true limit none) = .finish (reported r) ∧
      (r.isSuccess = true ↔ g.units = [] ∨ s.context.NamesDeployment) := by
  obtain ⟨_, _, hp⟩ := Workspace.planned_eq_ok_iff.mp hplanned
  obtain ⟨r, w, hbuild, hsuccess⟩ :=
    DryRun.build_isSuccess_iff (Workspace.planUnder_accepted hp) s.context limit stamp
  have hbuilt : built s stack limit stamp = .ok r := by
    rw [built, bind_eq_ok_iff]
    refine ⟨(g, p), hplanned, bind_eq_ok_iff.mpr ⟨(), by rw [checkLimit, if_neg hlimit], ?_⟩⟩
    exact bind_eq_ok_iff.mpr ⟨(r, w), mapError_eq_ok_iff.mpr hbuild, rfl⟩
  refine ⟨r, ?_, hsuccess⟩
  rw [course_apply_eq, bind_eq_ok_iff.mpr ⟨s, hsource, hbuilt⟩]

/-- Both commands end with the error that comes before they part. -/
theorem course_of_not_planned
    (h : Workspace.source disk stack.source vars = .error e ∨
      ∃ s, Workspace.source disk stack.source vars = .ok s ∧
        Workspace.planned s stack = .error e)
    (stamp : Stamp)
    (json : Bool)
    (limit : Option Nat) :
    course disk vars stamp (.plan stack json) = .finish (.failure e) ∧
      course disk vars stamp (.apply stack true limit none) = .finish (.failure e) := by
  have hchain : ∀ {α : Type} (next : Source → Except CommandError α),
      (∀ s, Workspace.planned s stack = .error e → next s = .error e) →
        (Workspace.source disk stack.source vars >>= next) = .error e := by
    intro α next hnext
    refine bind_eq_error_iff.mpr (h.imp_right ?_)
    rintro ⟨s, hsource, hplanned⟩
    exact ⟨s, hsource, hnext s hplanned⟩
  constructor
  · rw [course, hchain (listed · stack json) fun s hs => bind_eq_error_iff.mpr (Or.inl hs)]
    rfl
  · rw [course_apply_eq,
      hchain (built · stack limit stamp) fun s hs => bind_eq_error_iff.mpr (Or.inl hs)]

/-! ## How they end -/

theorem code_failure
    (h : e.BeforeBuild) :
    (Ending.failure e).exit.code = 1 ∨ (Ending.failure e).exit.code = 2 := by
  rcases h with h | h
  · exact Or.inl (congrArg Exit.code h)
  · exact Or.inr (congrArg Exit.code h)

theorem code_reported
    (r : Report) :
    (reported r).exit.code = if r.isSuccess then 0 else 3 := by
  rw [reported]
  cases r.isSuccess with
  | true => rfl
  | false => rfl

/-- The commands end with the same error unless there is a plan. If there is one, planning succeeds,
and applying succeeds or ends as a failed build, as the context decides. -/
theorem plan_apply_agree
    (disk : Disk)
    (vars : List (String × String))
    (stamp : Stamp)
    (stack : StackArguments)
    (json : Bool)
    {limit : Option Nat}
    (hlimit : limit ≠ some 0) :
    ∃ planned applied : Ending,
      course disk vars stamp (.plan stack json) = .finish planned ∧
      course disk vars stamp (.apply stack true limit none) = .finish applied ∧
      (applied.exit.code = 0 ∨ applied.exit.code = 3 ↔ planned.exit.code = 0) ∧
      (planned.exit.code ≠ 0 → applied.exit.code = planned.exit.code ∧
        applied.error.map CommandError.report = planned.error.map CommandError.report) ∧
      (planned.exit.code = 0 → ∃ s us ceiling,
        Workspace.source disk stack.source vars = .ok s ∧
        Workspace.units s stack = .ok (us, ceiling) ∧
        (applied.exit.code = 0 ↔ us = [] ∨
          (s.context.synthesizer.isSome ∨ s.context.host.id.isSome) ∧
            s.context.hosted.id.isSome)) := by
  rcases planned_or_failed disk vars stack with ⟨s, g, p, hsource, hplanned⟩ | ⟨e, hbefore, h⟩
  · obtain ⟨output, hplan⟩ := course_plan_of_planned hsource hplanned stamp json
    obtain ⟨r, happly, hsuccess⟩ := course_apply_of_planned hsource hplanned stamp hlimit
    obtain ⟨ceiling, hunits, _⟩ := Workspace.planned_eq_ok_iff.mp hplanned
    refine ⟨_, _, hplan, happly, ?_, fun hcode => absurd rfl hcode, fun _ => ?_⟩
    · refine iff_of_true ?_ rfl
      rw [code_reported]
      split
      · exact Or.inl rfl
      · exact Or.inr rfl
    · refine ⟨s, g.units, ceiling, hsource, hunits, Iff.trans ?_ hsuccess⟩
      rw [code_reported]
      split <;> simp [*]
  · obtain ⟨hplan, happly⟩ := course_of_not_planned h stamp json limit
    have hcode : (Ending.failure e).exit.code ≠ 0 ∧ (Ending.failure e).exit.code ≠ 3 := by
      rcases code_failure hbefore with hcode | hcode
      · omega
      · omega
    refine ⟨_, _, hplan, happly, ?_, fun _ => ⟨rfl, rfl⟩, fun hzero => absurd hzero hcode.1⟩
    exact iff_of_false (fun h => h.elim hcode.1 hcode.2) hcode.1

/-! ## Without any names -/

/-- A disk with a manifest and no context file. -/
def bareDisk (manifest : String) : Disk where
  text _ := .error .absent
  store _ := Store.ofTexts [("production/v1/stack.json", manifest)]

def bareStack : StackArguments where
  document := "stack.json"
  blueprint := false
  ceiling := none
  source := ⟨"resources", none, some "production", some "v1", []⟩

def bareSource (manifest : String) : Source where
  store := (bareDisk manifest).store "resources"
  context := .empty
  environment := .production
  version := .v1
  overrides := []

/-- A unit with the dependencies. -/
def lone (dependencies : String) : String :=
  "[null, 2, [[\"net\", \"network\", null, null, [" ++ dependencies ++ "], null]]]"

theorem bareDisk_source
    (manifest : String) :
    Workspace.source (bareDisk manifest) bareStack.source [] = .ok (bareSource manifest) :=
  rfl

/-- The unit without dependencies can be planned. -/
theorem lone_planned :
    ∃ g p, Workspace.planned (bareSource (lone "")) bareStack = .ok (g, p) ∧ g.units ≠ [] := by
  have hread : (Workspace.units (bareSource (lone "")) bareStack).toOption.map (fun x =>
      (x.1.map fun u => (u.id, u.dependsOn, u.weight), x.2)) = some ([("net", [], 1)], some 2) := by
    decide +kernel
  cases hunits : Workspace.units (bareSource (lone "")) bareStack with
  | error e =>
      rw [hunits] at hread
      cases hread
  | ok x =>
      obtain ⟨us, ceiling⟩ := x
      simp only [hunits, Except.toOption, Option.map_some, Option.some.injEq, Prod.mk.injEq,
        List.map_eq_cons_iff, List.map_eq_nil_iff] at hread
      obtain ⟨⟨u, _, rfl, ⟨_, hdependsOn, hweight⟩, rfl⟩, rfl⟩ := hread
      have hdeclared : DeclaredAfter [] [u] := .of_known fun v hv d hd => by
        rw [List.mem_singleton.mp hv, hdependsOn] at hd
        exact hd
      have hbuildable : Buildable [u] := hdeclared.buildable (by simp [WellDeclared, hweight])
      obtain ⟨g, _, hg⟩ := Graph.exists_ofUnits_iff.mpr hbuildable
      refine ⟨g, _, Workspace.planned_eq_ok_iff.mpr
        ⟨some 2, hg ▸ hunits, Plan.cut_eq_ofSegments (by decide)⟩, ?_⟩
      rw [hg]
      exact List.cons_ne_nil u []

/-- The unit with an unknown dependency cannot. -/
theorem dangling_planned :
    Workspace.planned (bareSource (lone "\"vpn\"")) bareStack =
      .error (.stack (.build (.unknownDependency "net" "vpn"))) := by
  refine (map_eq_error_iff (f := fun _ => ())).mp ?_
  decide +kernel

/-- A plan that was made is not built for want of names, and one that was not made is refused by both
commands. -/
theorem bare_plan_apply_agree :
    some 1 ≠ some 0 ∧
    (∃ planned applied,
      course (bareDisk (lone "")) [] ⟨"build", none, none⟩ (.plan bareStack false) =
        .finish planned ∧
      course (bareDisk (lone "")) [] ⟨"build", none, none⟩ (.apply bareStack true (some 1) none) =
        .finish applied ∧
      planned.exit.code = 0 ∧ applied.exit.code = 3) ∧
    ∃ planned applied,
      course (bareDisk (lone "\"vpn\"")) [] ⟨"build", none, none⟩ (.plan bareStack false) =
        .finish planned ∧
      course (bareDisk (lone "\"vpn\"")) [] ⟨"build", none, none⟩
          (.apply bareStack true (some 1) none) = .finish applied ∧
      applied.exit.code = 2 ∧
      applied.error.map CommandError.report =
        some "Unit 'net' depends on unknown unit 'vpn'" := by
  have hlimit : some 1 ≠ some 0 := by decide
  refine ⟨hlimit, ?_, ?_⟩
  · obtain ⟨planned, applied, hplan, happly, hends, _, hverdict⟩ := plan_apply_agree
      (bareDisk (lone "")) [] ⟨"build", none, none⟩ bareStack false hlimit
    obtain ⟨g, p, hplanned, hunits⟩ := lone_planned
    obtain ⟨output, hlisted⟩ :=
      course_plan_of_planned (bareDisk_source _) hplanned ⟨"build", none, none⟩ false
    rw [hplan] at hlisted
    cases hlisted
    obtain ⟨s, us, ceiling, hs, hus, hsuccess⟩ := hverdict rfl
    obtain ⟨_, hread, _⟩ := Workspace.planned_eq_ok_iff.mp hplanned
    rw [bareDisk_source] at hs
    cases hs
    rw [hread] at hus
    cases hus
    have hfails : applied.exit.code ≠ 0 := by
      rw [Ne, hsuccess]
      simp [hunits, bareSource, Context.empty, Scope.empty]
    exact ⟨_, applied, hplan, happly, rfl, (hends.mpr rfl).resolve_left hfails⟩
  · obtain ⟨planned, applied, hplan, happly, _, hsame, _⟩ := plan_apply_agree
      (bareDisk (lone "\"vpn\"")) [] ⟨"build", none, none⟩ bareStack false hlimit
    obtain ⟨hlisted, _⟩ := course_of_not_planned (Or.inr ⟨_, bareDisk_source _, dangling_planned⟩)
      ⟨"build", none, none⟩ false (some 1)
    rw [hplan] at hlisted
    cases hlisted
    obtain ⟨hcode, hreport⟩ := hsame (by decide)
    exact ⟨_, applied, hplan, happly, hcode, hreport⟩

end Command
end Provision
