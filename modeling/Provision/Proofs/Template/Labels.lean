import Provision.Proofs.Shape.Reading
import Provision.Proofs.Text.Letters
import Provision.Template.Scope

/-!
# Labels that are read in two ways

The environment and the version of a scope are given by labels.  In the variables of a process and on
the command line a label may have blanks around it and its ASCII letters in any case; in a document it
may be spelt in any case, with hyphens and underscores anywhere.  Where neither blanks nor separators
come in, only the case is left, and the labels have no letter whose case goes beyond ASCII.

**Results.**
* `Choices.ofText_eq_ok_iff`, `Choices.value?_eq_some_iff`: the values that a text stands for in each
  way.
* `labels_read_alike`: environments and versions are read alike in both ways.
-/

namespace Provision

open Text (SpeltApart)

namespace Choices

variable {α : Type} {c : Choices α} {s : String} {a b : α}

theorem label_mem_options
    (c : Choices α)
    (a : α) :
    (c.label a, a) ∈ c.options :=
  List.mem_of_find?_eq_some (c.find_label a)

theorem label_injective
    (h : c.label a = c.label b) :
    a = b := by
  have hfound := c.find_label a
  rw [h, c.find_label b] at hfound
  cases hfound
  rfl

/-- Choices between values whose labels consist of basic characters and differ in more than their
spelling. -/
structure IsBasic (c : Choices α) : Prop where
  apart : SpeltApart (c.options.map (·.1))
  basic : ∀ o ∈ c.options, Text.AreBasic o.1.toList
  labelled : ∀ o ∈ c.options, c.label o.2 = o.1

/-- A text without blanks at its ends stands for the value of which it is the label when its ASCII
letters are written small. -/
theorem ofText_eq_ok_iff
    (hc : c.IsBasic)
    (htrim : Text.trim s = s)
    {kind : String} :
    c.ofText kind s = .ok a ↔ Text.lowerAscii s = c.label a := by
  have hcase : ∀ o ∈ c.options,
      Shape.equalsIgnoringCase o.1 (Text.trim s) = true ↔ Text.lowerAscii s = o.1 := by
    intro o ho
    rw [Shape.equalsIgnoringCase, htrim, beq_iff_eq, (hc.basic o ho).lowerAscii_eq, eq_comm]
  rw [ofText]
  cases hfound : c.options.find? fun o => Shape.equalsIgnoringCase o.1 (Text.trim s) with
  | none =>
      refine ⟨nofun, fun h => ?_⟩
      have hmem := c.label_mem_options a
      exact absurd ((hcase _ hmem).mpr h) (List.find?_eq_none.mp hfound _ hmem)
  | some o =>
      have ho : o ∈ c.options := List.mem_of_find?_eq_some hfound
      have hequal : Shape.equalsIgnoringCase o.1 (Text.trim s) = true :=
        List.find?_some (p := fun o : String × α => Shape.equalsIgnoringCase o.1 (Text.trim s)) hfound
      have hlabel : Text.lowerAscii s = c.label o.2 := by
        rw [(hcase o ho).mp hequal, hc.labelled o ho]
      rw [Except.ok.injEq, hlabel]
      exact ⟨congrArg c.label, label_injective⟩

/-- In a document a text without separators stands for that value. -/
theorem value?_eq_some_iff
    (hc : c.IsBasic)
    (hunderscore : '_' ∉ s.toList)
    (hdash : '-' ∉ s.toList) :
    c.value? s = some a ↔ Text.lowerAscii s = c.label a := by
  have hsame : ∀ o ∈ c.options, Text.sameName o.1 s = true ↔ Text.lowerAscii s = o.1 :=
    fun o ho => Text.sameName_iff_lowerAscii (hc.basic o ho) hunderscore hdash
  rw [value?, Option.bind_eq_some_iff]
  constructor
  · rintro ⟨label, hlabel, hvalue⟩
    obtain ⟨o, hfound, rfl⟩ := Option.map_eq_some_iff.mp hvalue
    have ho : o ∈ c.options := List.mem_of_find?_eq_some hfound
    have heq : o.1 = label := by simpa using List.find?_some hfound
    rw [hc.labelled o ho, ← hsame o ho, heq]
    exact (Text.findName?_spells hlabel).2
  · intro h
    have hmem := c.label_mem_options a
    refine ⟨c.label a, ?_, by rw [c.find_label a, Option.map_some]⟩
    rw [Text.findName?_eq_some_iff hc.apart]
    exact ⟨List.mem_map_of_mem hmem, (hsame _ hmem).mpr h⟩

/-- Without blanks at the ends and without separators a label is read alike in both ways. -/
theorem ofText_eq_ok_iff_materialize
    (hc : c.IsBasic)
    (htrim : Text.trim s = s)
    (hunderscore : '_' ∉ s.toList)
    (hdash : '-' ∉ s.toList)
    (kind document : String) :
    c.ofText kind s = .ok a ↔ (Shape.choice c).materialize document (.text s) = .ok a := by
  rw [ofText_eq_ok_iff hc htrim, Shape.materialize, mapError_eq_ok_iff, Shape.read,
    read_text_eq_ok_iff, value?_eq_some_iff hc hunderscore hdash]

end Choices

theorem Environment.choices_isBasic :
    Environment.choices.IsBasic :=
  ⟨by decide +kernel, by decide +kernel, by decide +kernel⟩

theorem Version.choices_isBasic :
    Version.choices.IsBasic :=
  ⟨by decide +kernel, by decide +kernel, by decide +kernel⟩

/-- A text that neither starts nor ends with a blank and has no separators is read as an environment
from a variable or the command line iff it is read as that environment from a document, which is the
case if it is its label when ASCII letters are written small; and so for versions. -/
theorem labels_read_alike
    {s : String}
    (hfirst : ∀ c ∈ s.toList.head?, Text.isBlank c = false)
    (hlast : ∀ c ∈ s.toList.getLast?, Text.isBlank c = false)
    (hunderscore : '_' ∉ s.toList)
    (hdash : '-' ∉ s.toList)
    (document : String) :
    (∀ e, (Environment.ofText s = .ok e ↔
        Environment.shape.materialize document (.text s) = .ok e) ∧
      (Environment.ofText s = .ok e ↔ Text.lowerAscii s = e.label)) ∧
      ∀ v, (Version.ofText s = .ok v ↔ Version.shape.materialize document (.text s) = .ok v) ∧
        (Version.ofText s = .ok v ↔ Text.lowerAscii s = v.label) := by
  have htrim : Text.trim s = s := Text.trim_eq_self hfirst hlast
  constructor
  · intro e
    have hbasic := Environment.choices_isBasic
    exact ⟨Choices.ofText_eq_ok_iff_materialize hbasic htrim hunderscore hdash "environment" document,
      Choices.ofText_eq_ok_iff hbasic htrim⟩
  · intro v
    have hbasic := Version.choices_isBasic
    exact ⟨Choices.ofText_eq_ok_iff_materialize hbasic htrim hunderscore hdash "version" document,
      Choices.ofText_eq_ok_iff hbasic htrim⟩

/-- A label with letters in both cases is read alike in both ways, and one with a letter whose lower
case starts with an ASCII letter is refused in both. -/
theorem mixedCase_labels_read_alike :
    Text.lowerAscii "pRoDucTIon" = Environment.production.label ∧
      Environment.ofText "pRoDucTIon" = .ok .production ∧
      Environment.shape.materialize "context" (.text "pRoDucTIon") = .ok .production ∧
      Text.lower 'İ' = ['i', Char.ofNat 0x307] ∧
      (∀ e, Environment.ofText "productİon" ≠ .ok e) ∧
      ∀ e, Environment.shape.materialize "context" (.text "productİon") ≠ .ok e := by
  have hmixed := labels_read_alike (s := "pRoDucTIon") (fun c hc => by cases hc; rfl)
    (fun c hc => by cases hc; rfl) (by decide) (by decide) "context"
  have hdotted := labels_read_alike (s := "productİon") (fun c hc => by cases hc; rfl)
    (fun c hc => by cases hc; rfl) (by decide) (by decide) "context"
  have hread : Environment.ofText "pRoDucTIon" = .ok .production := (hmixed.1 _).2.mpr rfl
  have hrefused : ∀ e, Environment.ofText "productİon" ≠ .ok e := nofun
  exact ⟨rfl, hread, (hmixed.1 _).1.mp hread, rfl, hrefused,
    fun e h => hrefused e ((hdotted.1 e).1.mpr h)⟩

end Provision
