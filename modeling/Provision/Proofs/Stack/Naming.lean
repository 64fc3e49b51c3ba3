import Provision.Stack.DryRun

/-!
# Names of two deployments

Every name of a deployment starts with its stem, which is the name of the synthesizer and the id of
the hosted account, each with a dash after it.  Both may hold dashes themselves, and then a name does
not tell where they end: two deployments have a name in common iff the stem of one is the start of
the stem of the other.  If the two parts have as many dashes in one deployment as in the other, as
when they have none, this happens only for one and the same deployment.

An identifier holds the name behind a service, a region and an account, with colons between them, and
a type of resource that ends with a slash.  In the same way, equal identifiers have equal names if the
three parts hold as many colons in both, and either the types are equal or no slash stands in the
names of the synthesizers.

**Results.**
* `Naming.append_sep_inj`: a text is cut at one of its separators in one way.
* `Naming.exists_named_eq_iff`: which deployments have a name in common.
* `DryRun.named_of_identifier_eq`: units with one identifier have one name.
* `DryRun.deployments_apart`: which deployments are told apart by their names and identifiers.
-/

namespace Provision
namespace Naming

/-! ## Separators -/

/-- A text is cut at one of its separators in one way, once it is known how many of them stand in
front. -/
theorem append_sep_inj
    {sep : Char}
    {a a' b b' : List Char}
    (hcount : a.count sep = a'.count sep)
    (h : a ++ sep :: b = a' ++ sep :: b') :
    a = a' ∧ b = b' := by
  -- What one front has more than the other starts with a separator.
  have hnil : ∀ {front more rest rest' : List Char}, sep :: rest = more ++ sep :: rest' →
      front.count sep = (front ++ more).count sep → more = [] := by
    intro front more rest rest' hmore hsame
    cases more with
    | nil => rfl
    | cons c more =>
        obtain ⟨rfl, _⟩ := List.cons.inj hmore
        rw [List.count_append, List.count_cons_self] at hsame
        omega
  rcases List.append_eq_append_iff.mp h with ⟨more, rfl, hmore⟩ | ⟨more, rfl, hmore⟩
  · obtain rfl := hnil hmore hcount
    exact ⟨(List.append_nil a).symm, (List.cons.inj hmore).2⟩
  · obtain rfl := hnil hmore hcount.symm
    exact ⟨List.append_nil a', (List.cons.inj hmore).2.symm⟩

theorem append_sep_inj_of_not_mem
    {sep : Char}
    {a a' b b' : List Char}
    (ha : sep ∉ a)
    (ha' : sep ∉ a')
    (h : a ++ sep :: b = a' ++ sep :: b') :
    a = a' ∧ b = b' :=
  append_sep_inj (by rw [List.count_eq_zero.mpr ha, List.count_eq_zero.mpr ha']) h

/-! ## Names -/

/-- The name of the synthesizer and the id of the hosted account that a context tells. -/
def Deploys (c : Context) (d : String × String) : Prop :=
  c.synthesizerName? = some d.1 ∧ c.hosted.id = some d.2

theorem deployment_eq_ok_iff
    {c : Context}
    {d : String × String} :
    deployment c = .ok d ↔ Deploys c d := by
  rw [deployment, Deploys]
  cases c.synthesizerName? with
  | none => simp
  | some synthesizer => cases c.hosted.id <;> simp [Prod.ext_iff]

/-- What every name of a deployment starts with. -/
def stem (d : String × String) : List Char :=
  d.1.toList ++ '-' :: (d.2.toList ++ ['-'])

/-- The stem of one deployment is the start of the stem of the other. -/
def Overlap (d d' : String × String) : Prop :=
  stem d <+: stem d' ∨ stem d' <+: stem d

instance (d d' : String × String) : Decidable (Overlap d d') :=
  inferInstanceAs (Decidable (_ ∨ _))

/-- As many dashes stand in both parts of one deployment as in those of the other. -/
def SameDashes (d d' : String × String) : Prop :=
  d.1.toList.count '-' = d'.1.toList.count '-' ∧ d.2.toList.count '-' = d'.2.toList.count '-'

instance (d d' : String × String) : Decidable (SameDashes d d') :=
  inferInstanceAs (Decidable (_ ∧ _))

section Names

variable {c c' : Context} {d d' : String × String}

theorem named_of_deploys
    (h : Deploys c d)
    (suffix : String) :
    named c suffix = .ok (String.ofList (stem d ++ suffix.toList)) := by
  rw [named, deployment_eq_ok_iff.mpr h]
  refine congrArg Except.ok (String.toList_inj.mp ?_)
  simp [stem, String.toList_append]

theorem named_eq_named_iff
    (h : Deploys c d)
    (h' : Deploys c' d')
    {s s' : String} :
    named c s = named c' s' ↔ stem d ++ s.toList = stem d' ++ s'.toList := by
  rw [named_of_deploys h, named_of_deploys h', Except.ok.injEq, String.ofList_inj]

theorem overlap_of_append_eq
    {s s' : List Char}
    (h : stem d ++ s = stem d' ++ s') :
    Overlap d d' := by
  rcases List.append_eq_append_iff.mp h with ⟨more, heq, _⟩ | ⟨more, heq, _⟩
  · exact .inl ⟨more, heq.symm⟩
  · exact .inr ⟨more, heq.symm⟩

/-- Two deployments have a name in common iff the stem of one is the start of that of the other. -/
theorem exists_named_eq_iff
    (h : Deploys c d)
    (h' : Deploys c' d') :
    (∃ s s', named c s = named c' s') ↔ Overlap d d' := by
  simp only [named_eq_named_iff h h']
  constructor
  · rintro ⟨s, s', heq⟩
    exact overlap_of_append_eq heq
  · rintro (⟨more, heq⟩ | ⟨more, heq⟩)
    · exact ⟨String.ofList more, "", by simp [heq]⟩
    · exact ⟨"", String.ofList more, by simp [heq]⟩

/-- Parts that hold as many dashes can be told from a common start of their stems. -/
theorem eq_of_overlap
    (hdashes : SameDashes d d')
    (h : Overlap d d') :
    d = d' := by
  have hparts : ∀ {e e' : String × String}, SameDashes e e' → stem e <+: stem e' → e = e' := by
    rintro e e' ⟨hfirst, hsecond⟩ ⟨more, hmore⟩
    simp only [stem, List.append_assoc, List.cons_append, List.nil_append] at hmore
    obtain ⟨hone, hrest⟩ := append_sep_inj hfirst hmore
    obtain ⟨htwo, _⟩ := append_sep_inj hsecond hrest
    exact Prod.ext (String.toList_inj.mp hone) (String.toList_inj.mp htwo)
  rcases h with h | h
  · exact hparts hdashes h
  · exact (hparts ⟨hdashes.1.symm, hdashes.2.symm⟩ h).symm

end Names
end Naming

namespace DryRun

open Naming (Deploys Overlap SameDashes)

/-! ## Identifiers -/

/-- What an identifier says after the account: a type of resource with a slash, if it has one. -/
def resourceType : Kind → List Char
  | .network => ['v', 'p', 'c', '/']
  | .compute => ['n', 'o', 'd', 'e', 'g', 'r', 'o', 'u', 'p', '/']
  | .identity => ['r', 'o', 'l', 'e', '/']
  | .kubernetes => ['c', 'l', 'u', 's', 't', 'e', 'r', '/']
  | .addon => ['a', 'd', 'd', 'o', 'n', '/']
  | .observability => ['d', 'a', 's', 'h', 'b', 'o', 'a', 'r', 'd', '/']
  | .messaging | .storage | .custom _ => []

/-- The parts of an identifier in front of the type of resource. -/
def scopeParts (kind : Kind) (region account : String) : String × String × String :=
  match kind with
  | .network => ("ec2", region, account)
  | .compute | .kubernetes | .addon => ("eks", region, account)
  | .identity => ("iam", "", account)
  | .messaging => ("sqs", region, account)
  | .storage => ("s3", "", "")
  | .observability => ("cloudwatch", "", account)
  | .custom text => (text, region, account)

theorem toList_identifierOf
    (kind : Kind)
    (region account name : String) :
    (identifierOf kind region account name).toList =
      ['a', 'r', 'n', ':', 'a', 'w', 's', ':'] ++ (scopeParts kind region account).1.toList ++
        ':' :: ((scopeParts kind region account).2.1.toList ++
          ':' :: ((scopeParts kind region account).2.2.toList ++
            ':' :: (resourceType kind ++ name.toList))) := by
  -- The definition is opened as a whole, since its equations would have to compare literal texts.
  cases kind <;> delta identifierOf <;>
    simp only [scopeParts, resourceType, String.toList_append, List.append_assoc] <;> rfl

/-- What the identifier of a unit says in front of the type of resource. -/
def unitParts (c : Context) (u : Resource) : String × String × String :=
  scopeParts u.kind (c.hosted.region.getD "") (c.hosted.account.getD "")

/-- The marks that divide identifiers stand as often in the parts of one as in those of the other. -/
structure SameMarks (c c' : Context) (d d' : String × String) (u u' : Resource) : Prop where
  service : (unitParts c u).1.toList.count ':' = (unitParts c' u').1.toList.count ':'
  region : (unitParts c u).2.1.toList.count ':' = (unitParts c' u').2.1.toList.count ':'
  account : (unitParts c u).2.2.toList.count ':' = (unitParts c' u').2.2.toList.count ':'
  type : resourceType u.kind = resourceType u'.kind ∨ '/' ∉ d.1.toList ∧ '/' ∉ d'.1.toList

/-- A type of resource is a word without dashes and slashes that a slash ends. -/
theorem resourceType_cases
    (kind : Kind) :
    resourceType kind = [] ∨
      ∃ word, resourceType kind = word ++ ['/'] ∧ '/' ∉ word ∧ '-' ∉ word := by
  cases kind with
  | network => exact .inr ⟨['v', 'p', 'c'], by simp [resourceType]⟩
  | compute => exact .inr ⟨['n', 'o', 'd', 'e', 'g', 'r', 'o', 'u', 'p'], by simp [resourceType]⟩
  | identity => exact .inr ⟨['r', 'o', 'l', 'e'], by simp [resourceType]⟩
  | kubernetes => exact .inr ⟨['c', 'l', 'u', 's', 't', 'e', 'r'], by simp [resourceType]⟩
  | addon => exact .inr ⟨['a', 'd', 'd', 'o', 'n'], by simp [resourceType]⟩
  | observability =>
      exact .inr ⟨['d', 'a', 's', 'h', 'b', 'o', 'a', 'r', 'd'], by simp [resourceType]⟩
  | messaging => exact .inl rfl
  | storage => exact .inl rfl
  | custom text => exact .inl rfl

/-- A name whose first dash stands in front of every slash starts with no type of resource. -/
theorem ne_resourceType_append
    {word first rest name : List Char}
    (hword : '-' ∉ word)
    (hfirst : '/' ∉ first) :
    first ++ '-' :: rest ≠ word ++ '/' :: name := by
  intro h
  rcases List.append_eq_append_iff.mp h with ⟨more, rfl, hmore⟩ | ⟨more, rfl, hmore⟩
  · cases more with
    | nil => cases hmore
    | cons x more =>
        cases hmore
        exact hword (List.mem_append_right _ List.mem_cons_self)
  · cases more with
    | nil => cases hmore
    | cons x more =>
        cases hmore
        exact hfirst (List.mem_append_right _ List.mem_cons_self)

theorem resourceType_append_inj
    {kind kind' : Kind}
    {first first' rest rest' : List Char}
    (hfirst : '/' ∉ first)
    (hfirst' : '/' ∉ first')
    (h : resourceType kind ++ (first ++ '-' :: rest) =
      resourceType kind' ++ (first' ++ '-' :: rest')) :
    first ++ '-' :: rest = first' ++ '-' :: rest' := by
  rcases resourceType_cases kind with hnil | ⟨word, htype, hslash, hdash⟩ <;>
    rcases resourceType_cases kind' with hnil' | ⟨word', htype', hslash', hdash'⟩
  · simpa [hnil, hnil'] using h
  · rw [hnil, htype', List.nil_append, List.append_assoc] at h
    exact absurd h (ne_resourceType_append hdash' hfirst)
  · rw [hnil', htype, List.nil_append, List.append_assoc] at h
    exact absurd h.symm (ne_resourceType_append hdash hfirst')
  · rw [htype, htype', List.append_assoc, List.append_assoc] at h
    exact (Naming.append_sep_inj_of_not_mem hslash hslash' h).2

section Identifiers

variable {c c' : Context} {d d' : String × String} {u u' : Resource}

/-- Units with one identifier have one name, if its parts can be told apart. -/
theorem named_of_identifier_eq
    (h : Deploys c d)
    (h' : Deploys c' d')
    (hmarks : SameMarks c c' d d' u u')
    (heq : identifier c u = identifier c' u') :
    Naming.named c (Naming.nameOf [baseName u]) =
      Naming.named c' (Naming.nameOf [baseName u']) := by
  rw [identifier, identifier, Naming.named_of_deploys h, Naming.named_of_deploys h'] at heq
  rw [Naming.named_eq_named_iff h h']
  have htext := congrArg String.toList (Except.ok.inj heq)
  rw [toList_identifierOf, toList_identifierOf, List.append_assoc, List.append_assoc,
    List.append_cancel_left_eq] at htext
  obtain ⟨_, htext⟩ := Naming.append_sep_inj hmarks.service htext
  obtain ⟨_, htext⟩ := Naming.append_sep_inj hmarks.region htext
  obtain ⟨_, htext⟩ := Naming.append_sep_inj hmarks.account htext
  simp only [String.toList_ofList, Naming.stem, List.append_assoc, List.cons_append] at htext ⊢
  rcases hmarks.type with htype | ⟨hfirst, hfirst'⟩
  · rwa [htype, List.append_cancel_left_eq] at htext
  · exact resourceType_append_inj hfirst hfirst' htext

/-- The names of two deployments tell the deployments and the suffixes iff they are one deployment or
neither stem is the start of the other.  So it is whenever the name of the synthesizer and the id of
the hosted account have as many dashes in both; then identifiers tell the deployments too, if their
parts can be told apart.  Otherwise units have one identifier only if the stems overlap. -/
theorem deployments_apart
    (h : Deploys c d)
    (h' : Deploys c' d') :
    ((∀ s s', Naming.named c s = Naming.named c' s' → d = d' ∧ s = s') ↔
      d = d' ∨ ¬ Overlap d d') ∧
    (SameDashes d d' →
      (∀ s s', Naming.named c s = Naming.named c' s' → d = d' ∧ s = s') ∧
      ∀ u u', SameMarks c c' d d' u u' → identifier c u = identifier c' u' → d = d') ∧
    ∀ u u', SameMarks c c' d d' u u' → identifier c u = identifier c' u' → Overlap d d' := by
  have hunique : d = d' ∨ ¬ Overlap d d' →
      ∀ s s', Naming.named c s = Naming.named c' s' → d = d' ∧ s = s' := by
    intro hapart s s' hname
    have heq := hapart.resolve_right fun hnone =>
      hnone ((Naming.exists_named_eq_iff h h').mp ⟨s, s', hname⟩)
    rw [Naming.named_eq_named_iff h h', heq, List.append_cancel_left_eq] at hname
    exact ⟨heq, String.toList_inj.mp hname⟩
  have hidentifier : ∀ u u', SameMarks c c' d d' u u' →
      identifier c u = identifier c' u' → Overlap d d' := fun u u' hmarks heq =>
    (Naming.exists_named_eq_iff h h').mp ⟨_, _, named_of_identifier_eq h h' hmarks heq⟩
  refine ⟨⟨fun htold => ?_, hunique⟩, fun hdashes => ⟨hunique ?_, fun u u' hmarks heq => ?_⟩,
    hidentifier⟩
  · rcases Decidable.em (Overlap d d') with hoverlap | hnone
    · obtain ⟨s, s', hname⟩ := (Naming.exists_named_eq_iff h h').mpr hoverlap
      exact .inl (htold s s' hname).1
    · exact .inr hnone
  · exact (Decidable.em (Overlap d d')).imp_left (Naming.eq_of_overlap hdashes)
  · exact Naming.eq_of_overlap hdashes (hidentifier u u' hmarks heq)

/-- The context of a deployment by a host for a hosted account. -/
def hostedBy (host hosted : String) : Context :=
  { Context.empty with
    host := { Scope.empty with id := some host }
    hosted := { Scope.empty with id := some hosted, region := some "eu-west-1" } }

/-- A dash in the id of the hosted account is taken for the one behind it. -/
example :
    Naming.named (hostedBy "ops" "shop") "eu-vpc" = Naming.named (hostedBy "ops" "shop-eu") "vpc" :=
  rfl

/-- Two accounts of which one name starts with the other and a dash have names in common; two hosts
with a dash in their names have none, and no network of theirs has the same identifier. -/
theorem shop_deployments_apart :
    Deploys (hostedBy "ops" "shop") ("ops", "shop") ∧
      Deploys (hostedBy "ops" "shop-eu") ("ops", "shop-eu") ∧
      Deploys (hostedBy "ops-a" "shop") ("ops-a", "shop") ∧
      Deploys (hostedBy "ops-b" "shop") ("ops-b", "shop") ∧
      ¬ (∀ s s', Naming.named (hostedBy "ops" "shop") s = Naming.named (hostedBy "ops" "shop-eu") s' →
        ("ops", "shop") = ("ops", "shop-eu") ∧ s = s') ∧
      (∀ s s', Naming.named (hostedBy "ops-a" "shop") s ≠ Naming.named (hostedBy "ops-b" "shop") s') ∧
      identifier (hostedBy "ops-a" "shop") (.ofKind "vpc" .network) ≠
        identifier (hostedBy "ops-b" "shop") (.ofKind "vpc" .network) := by
  have hshop : Deploys (hostedBy "ops" "shop") ("ops", "shop") := ⟨rfl, rfl⟩
  have hshopEu : Deploys (hostedBy "ops" "shop-eu") ("ops", "shop-eu") := ⟨rfl, rfl⟩
  have hfirst : Deploys (hostedBy "ops-a" "shop") ("ops-a", "shop") := ⟨rfl, rfl⟩
  have hsecond : Deploys (hostedBy "ops-b" "shop") ("ops-b", "shop") := ⟨rfl, rfl⟩
  have hdashes : SameDashes ("ops-a", "shop") ("ops-b", "shop") := by decide
  have hmarks : SameMarks (hostedBy "ops-a" "shop") (hostedBy "ops-b" "shop") ("ops-a", "shop")
      ("ops-b", "shop") (.ofKind "vpc" .network) (.ofKind "vpc" .network) :=
    ⟨rfl, rfl, rfl, .inl rfl⟩
  obtain ⟨hnames, hidentifiers⟩ := (deployments_apart hfirst hsecond).2.1 hdashes
  refine ⟨hshop, hshopEu, hfirst, hsecond, fun hunique => ?_, fun s s' heq => ?_, fun heq => ?_⟩
  · have happart := (deployments_apart hshop hshopEu).1.mp hunique
    exact absurd happart (by decide)
  · exact absurd (hnames s s' heq).1 (by decide)
  · exact absurd (hidentifiers _ _ hmarks heq) (by decide)

end Identifiers

end DryRun
end Provision
