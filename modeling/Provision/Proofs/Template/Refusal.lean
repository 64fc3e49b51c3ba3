import Mathlib.Data.List.TakeWhile
import Provision.Proofs.Template.Places

/-!
# Requests that are refused

A request is refused before the store is asked if its path is blank or may lead out of the folder of
its environment and version.  The path is judged by its parts, in which repeated slashes and `.` do
not count, while the store is given the path as it is written; both views agree.

**Results.**
* `Text.mem_splitText_iff`: the segments of a path are the texts without a slash that stand between
  slashes or the ends of the path.
* `Request.check_eq_error_iff`: which paths are refused, and why.
* `Store.resolve_verdict`: a refused request does not depend on the store; every other one asks it
  for one path, which leads into the folder of the environment and version and not back.
-/

namespace Provision

namespace Text

/-! ## Segments -/

/-- Where a segment can stand in a text: between two separators or the ends. -/
inductive HasSegment (sep : Char) (segment : List Char) : List Char → Prop
  | alone :
      HasSegment sep segment segment
  | first
      (after : List Char) :
      HasSegment sep segment (segment ++ sep :: after)
  | last
      (before : List Char) :
      HasSegment sep segment (before ++ sep :: segment)
  | between
      (before after : List Char) :
      HasSegment sep segment (before ++ sep :: (segment ++ sep :: after))

/-- A segment stays one when other segments come in front. -/
theorem HasSegment.append
    {sep : Char}
    {segment cs : List Char}
    (h : HasSegment sep segment cs)
    (front : List Char) :
    HasSegment sep segment (front ++ sep :: cs) := by
  cases h with
  | alone => exact .last front
  | first after => exact .between front after
  | last before =>
      have heq : front ++ sep :: (before ++ sep :: segment) =
          (front ++ sep :: before) ++ sep :: segment := by simp
      rw [heq]
      exact .last _
  | between before after =>
      have heq : front ++ sep :: (before ++ sep :: (segment ++ sep :: after)) =
          (front ++ sep :: before) ++ sep :: (segment ++ sep :: after) := by simp
      rw [heq]
      exact .between _ _

theorem hasSegment_of_mem_split
    {sep : Char}
    {segment cs : List Char}
    (h : segment ∈ split sep cs) :
    HasSegment sep segment cs := by
  by_cases hsep : sep ∈ cs
  · obtain ⟨first, rest, hcs, hfirst⟩ := List.eq_append_cons_of_mem hsep
    have hshorter : rest.length < cs.length := by
      rw [hcs, List.length_append, List.length_cons]
      omega
    rw [hcs, split_append, split_of_not_mem hfirst, List.singleton_append, List.mem_cons] at h
    rw [hcs]
    rcases h with rfl | h
    · exact .first rest
    · exact (hasSegment_of_mem_split h).append first
  · rw [split_of_not_mem hsep, List.mem_singleton] at h
    rw [h]
    exact .alone
termination_by cs.length

/-- The segments of a text are what stands between separators or the ends. -/
theorem mem_split_iff
    {sep : Char}
    {segment cs : List Char}
    (hsegment : sep ∉ segment) :
    segment ∈ split sep cs ↔ HasSegment sep segment cs := by
  refine ⟨hasSegment_of_mem_split, fun h => ?_⟩
  cases h with
  | alone => simp [split_of_not_mem hsegment]
  | first after => simp [split_append, split_of_not_mem hsegment]
  | last before => simp [split_append, split_of_not_mem hsegment]
  | between before after => simp [split_append, split_of_not_mem hsegment]

theorem mem_splitText_iff
    {sep : Char}
    {segment s : String}
    (hsegment : sep ∉ segment.toList) :
    segment ∈ splitText sep s ↔ HasSegment sep segment.toList s.toList := by
  rw [← mem_split_iff hsegment, splitText, List.mem_map]
  constructor
  · rintro ⟨part, hpart, rfl⟩
    rwa [String.toList_ofList]
  · exact fun h => ⟨segment.toList, h, String.ofList_toList⟩

/-! ## Blank texts -/

/-- Nothing is left of a text without the blanks at both ends iff it has nothing else. -/
theorem trim_isEmpty_iff
    {s : String} :
    (trim s).isEmpty = true ↔ ∀ c ∈ s.toList, isBlank c = true := by
  rw [String.isEmpty_iff, ← String.toList_eq_nil_iff, trim, String.toList_ofList, trimChars,
    List.reverse_eq_nil_iff, dropBlanks, List.dropWhile_eq_nil_iff]
  simp only [List.mem_reverse]
  constructor
  · intro h c hc
    rw [← List.takeWhile_append_dropWhile (p := isBlank) (l := s.toList), List.mem_append] at hc
    rcases hc with hc | hc
    · exact List.mem_takeWhile_imp hc
    · exact h c hc
  · exact fun h c hc => h c ((List.dropWhile_sublist _).mem hc)

theorem not_trim_isEmpty_iff
    {s : String} :
    ¬ (trim s).isEmpty = true ↔ ∃ c ∈ s.toList, isBlank c = false := by
  rw [trim_isEmpty_iff]
  simp

end Text

/-! ## Refused paths -/

namespace Request

/-- A path that leads out of the folder it starts in, or would do so where a backslash divides
segments. -/
def LeadsOut (path : String) : Prop :=
  path.toList.head? = some '/' ∨ path.toList.head? = some '\\' ∨
    Text.HasSegment '/' ['.', '.'] path.toList

/-- The paths that are not asked for, and the reasons. -/
inductive Refused (path : String) : String → Prop
  | blank
      (blank : ∀ c ∈ path.toList, Text.isBlank c = true) :
      Refused path "document path must not be empty"
  | out
      (written : ∃ c ∈ path.toList, Text.isBlank c = false)
      (out : LeadsOut path) :
      Refused path ("document path must be relative without '..': " ++ path)

theorem escapes_iff_leadsOut
    {path : String} :
    escapes path = true ↔ LeadsOut path := by
  have hback : '/' ∉ "..".toList := by decide
  rw [escapes_iff, Text.mem_splitText_iff hback, LeadsOut]
  tauto

theorem check_of_refused
    {r : Request}
    {reason : String}
    (h : Refused r.path reason) :
    r.check = .error (.invalidRequest reason) := by
  cases h with
  | blank blank => rw [check, if_pos (Text.trim_isEmpty_iff.mpr blank)]
  | out written out =>
      rw [check, if_neg (Text.not_trim_isEmpty_iff.mpr written),
        if_pos (escapes_iff_leadsOut.mpr out)]

theorem refused_of_check
    {r : Request}
    {e : TemplateError}
    (h : r.check = .error e) :
    ∃ reason, e = .invalidRequest reason ∧ Refused r.path reason := by
  rw [check] at h
  split at h
  · rename_i hempty
    cases h
    exact ⟨_, rfl, .blank (Text.trim_isEmpty_iff.mp hempty)⟩
  · rename_i hwritten
    split at h
    · rename_i hescapes
      cases h
      exact ⟨_, rfl, .out (Text.not_trim_isEmpty_iff.mp hwritten)
        (escapes_iff_leadsOut.mp hescapes)⟩
    · cases h

/-- A request is refused for its path alone. -/
theorem check_eq_error_iff
    {r : Request}
    {e : TemplateError} :
    r.check = .error e ↔ ∃ reason, e = .invalidRequest reason ∧ Refused r.path reason := by
  refine ⟨refused_of_check, ?_⟩
  rintro ⟨reason, rfl, hrefused⟩
  exact check_of_refused hrefused

theorem check_eq_ok_iff
    {r : Request} :
    r.check = .ok () ↔ ∀ reason, ¬ Refused r.path reason := by
  constructor
  · intro hok reason hrefused
    rw [check_of_refused hrefused] at hok
    cases hok
  · intro hnone
    cases hcheck : r.check with
    | ok _ => rfl
    | error e =>
        obtain ⟨reason, _, hrefused⟩ := refused_of_check hcheck
        exact absurd hrefused (hnone reason)

/-- The names on the way to a document are those of the environment, of the version and of the path
that is asked for. -/
theorem segments_location
    (r : Request) :
    Text.splitText '/' r.location =
      r.environment.label :: r.version.label :: Text.splitText '/' r.path := by
  have henvironment : '/' ∉ r.environment.label.toList := by
    cases r.environment <;> decide
  have hversion : '/' ∉ r.version.label.toList := by
    cases r.version <;> decide
  have hcharacters : r.location.toList =
      r.environment.label.toList ++ '/' :: (r.version.label.toList ++ '/' :: r.path.toList) := by
    simp [location, String.toList_append]
  rw [Text.splitText, hcharacters, Text.split_append, Text.split_append,
    Text.split_of_not_mem henvironment, Text.split_of_not_mem hversion]
  simp [Text.splitText, String.ofList_toList]

end Request

/-! ## Requests and stores -/

namespace Store

/-- A request that passes its check is answered with what the store has at its place. -/
theorem resolve_of_check
    {r : Request}
    (h : r.check = .ok ())
    (c : Context)
    (store : Store) :
    store.resolve r c = (store r.location).map fun text =>
      ⟨r.location, Template.render text (c.defaults.merge r.overrides)⟩ := by
  rw [resolve, h]
  cases store r.location with
  | ok text => rfl
  | error e => rfl

theorem resolve_of_check_error
    {r : Request}
    {e : TemplateError}
    (h : r.check = .error e)
    (c : Context)
    (store : Store) :
    store.resolve r c = .error e := by
  rw [resolve, h]
  rfl

/-- A request is refused, whatever the store holds, iff its path is blank, starts with a slash or a
backslash, or has a segment `..`.  Every other request asks the store for one path, which is that of
the environment, the version and the document; its names start with these two and it has no segment
`..`. -/
theorem resolve_verdict
    (r : Request)
    (c : Context) :
    (∀ reason, (∀ store : Store, store.resolve r c = .error (.invalidRequest reason)) ↔
      Request.Refused r.path reason) ∧
      ((∀ reason, ¬ Request.Refused r.path reason) →
        ∃ path, path = r.environment.label ++ "/" ++ r.version.label ++ "/" ++ r.path ∧
          (∀ store : Store, store.resolve r c = (store path).map fun text =>
            ⟨path, Template.render text (c.defaults.merge r.overrides)⟩) ∧
          FileTree.names (Text.splitText '/' path) =
            r.environment.label :: r.version.label :: FileTree.names (Text.splitText '/' r.path) ∧
          ".." ∉ Text.splitText '/' path) := by
  refine ⟨fun reason => ⟨fun h => ?_, fun h store => ?_⟩, fun hnone => ?_⟩
  · -- A store that has a document everywhere cannot be the cause of an error.
    have hfull := h fun _ => .ok ""
    cases hcheck : r.check with
    | ok _ =>
        rw [resolve_of_check hcheck] at hfull
        cases hfull
    | error e =>
        rw [resolve_of_check_error hcheck] at hfull
        obtain ⟨reason', rfl, hrefused⟩ := Request.check_eq_error_iff.mp hcheck
        cases hfull
        exact hrefused
  · exact resolve_of_check_error (Request.check_of_refused h) c store
  · have hcheck := Request.check_eq_ok_iff.mpr hnone
    have hdown := Request.down_of_check hcheck
    have hlabels : r.environment.label ≠ ".." ∧ r.version.label ≠ ".." ∧
        ¬ FileTree.Stays r.environment.label ∧ ¬ FileTree.Stays r.version.label := by
      cases r.environment <;> cases r.version <;> decide
    refine ⟨r.location, rfl, resolve_of_check hcheck c, ?_, ?_⟩
    · rw [Request.segments_location, FileTree.names_cons hlabels.2.2.1,
        FileTree.names_cons hlabels.2.2.2]
    · rw [Request.segments_location]
      simp [hdown, Ne.symm hlabels.1, Ne.symm hlabels.2.1]

/-- A request whose path leads back to the folder where it starts, and no further. -/
def returning : Request := ⟨.production, .v2, "a//../b", []⟩

/-- A request whose path has segments with dots but none that leads back. -/
def dotted : Request := ⟨.production, .v2, "./a//.../b..yaml", []⟩

/-- Of two paths with dots and repeated slashes one is refused; the other is asked for as it is
written. -/
theorem dotted_resolve_verdict :
    Request.Refused returning.path
        "document path must be relative without '..': a//../b" ∧
      (∀ store : Store, store.resolve returning .empty =
        .error (.invalidRequest "document path must be relative without '..': a//../b")) ∧
      (∀ reason, ¬ Request.Refused dotted.path reason) ∧
      (∀ store : Store, store.resolve dotted .empty =
        (store "production/v2/./a//.../b..yaml").map fun text =>
          ⟨"production/v2/./a//.../b..yaml",
            Template.render text (Context.empty.defaults.merge [])⟩) ∧
      FileTree.names (Text.splitText '/' "production/v2/./a//.../b..yaml") =
        ["production", "v2", "a", "...", "b..yaml"] := by
  have hrefused : Request.Refused returning.path
      "document path must be relative without '..': a//../b" :=
    .out ⟨'a', by decide, by decide⟩ (Or.inr (Or.inr (.between ['a', '/'] ['b'])))
  have hnone : ∀ reason, ¬ Request.Refused dotted.path reason :=
    Request.check_eq_ok_iff.mp rfl
  obtain ⟨_, rfl, hstore, hnames, _⟩ := (resolve_verdict dotted .empty).2 hnone
  exact ⟨hrefused, ((resolve_verdict returning .empty).1 _).mpr hrefused, hnone, hstore, hnames⟩

end Store
end Provision
