import Provision.Proofs.Template.Placeholder

/-!
# Rendering around a placeholder

A placeholder stays one piece of a template whatever stands around it, unless an opening brace
stands right in front of it: then the braces could be divided in another way.

**Results.**
* `pieces_placeholder`: the pieces before and after a placeholder are those of the text before and
  of the text after it.
* `render_placeholder`: a template is rendered by rendering what stands before and after a
  placeholder and writing the value of its name in between; a text without placeholders stays as it
  is.
-/

namespace Provision
namespace Template

@[simp] theorem pieces_nil :
    pieces [] = [] := by
  rw [pieces]

/-- A placeholder in front is the first piece. -/
theorem pieces_append
    {name p : List Char}
    (hp : IsPlaceholder name p)
    (post : List Char) :
    pieces (p ++ post) = .hole p name :: pieces post := by
  have hfound : placeholder? (p ++ post) = some (name, post) :=
    placeholder?_eq_some_iff.mpr ⟨p, hp, rfl⟩
  obtain ⟨rest, rfl⟩ := List.head?_eq_some_iff.mp hp.head?
  rw [List.cons_append] at hfound ⊢
  rw [pieces]
  split
  · rename_i n after hn
    rw [hfound] at hn
    cases hn
    congr 2
    rw [← List.cons_append, List.length_append, Nat.add_sub_cancel, List.take_left]
  · rename_i hn
    rw [hfound] at hn
    cases hn

/-- A character in front that starts no placeholder is the first piece. -/
theorem pieces_cons
    {c : Char}
    {rest : List Char}
    (h : placeholder? (c :: rest) = none) :
    pieces (c :: rest) = .plain c :: pieces rest := by
  rw [pieces]
  split
  · rename_i n after hn
    rw [h] at hn
    cases hn
  · rfl

/-- Where no placeholder starts, none starts because a placeholder follows, unless only opening
braces stand in between. -/
theorem placeholder?_append_eq_none
    {c : Char}
    {rest p : List Char}
    {name : List Char}
    (hlast : (c :: rest).getLast? ≠ some '{')
    (hp : IsPlaceholder name p)
    (h : placeholder? (c :: rest) = none)
    (post : List Char) :
    placeholder? (c :: rest ++ (p ++ post)) = none := by
  rw [Option.eq_none_iff_forall_ne_some]
  rintro ⟨name', after⟩ hfound
  obtain ⟨p', hp', heq⟩ := placeholder?_eq_some_iff.mp hfound
  rcases List.append_eq_append_iff.mp heq with ⟨shared, hshared, hpost⟩ | ⟨shared, hshared, hpost⟩
  · -- The placeholder `p'` goes on into `p`, so its last character before `p` is a brace.
    obtain ⟨tail, hbrace⟩ := List.head?_eq_some_iff.mp hp.head?
    cases shared with
    | nil =>
        rw [List.append_nil] at hshared
        have hhere : placeholder? (c :: rest) = some (name', []) :=
          placeholder?_eq_some_iff.mpr ⟨p', hp', by rw [hshared, List.append_nil]⟩
        rw [h] at hhere
        cases hhere
    | cons d shared =>
        rw [hbrace, List.cons_append, List.cons_append] at hpost
        obtain ⟨rfl, _⟩ := List.cons.inj hpost
        have hbraces := hp'.braces_before hshared
        refine hlast ?_
        rw [List.getLast?_eq_some_getLast (List.cons_ne_nil c rest)]
        exact congrArg some (hbraces _ (List.getLast_mem _))
  · have hhere : placeholder? (c :: rest) = some (name', shared) :=
      placeholder?_eq_some_iff.mpr ⟨p', hp', hshared⟩
    rw [h] at hhere
    cases hhere

/-- The pieces before and after a placeholder are those of the texts before and after it. -/
theorem pieces_placeholder
    {pre p name : List Char}
    (hpre : pre.getLast? ≠ some '{')
    (hp : IsPlaceholder name p)
    (post : List Char) :
    pieces (pre ++ (p ++ post)) = pieces pre ++ .hole p name :: pieces post := by
  induction pre using pieces.induct with
  | case1 => rw [List.nil_append, pieces_append hp, pieces_nil, List.nil_append]
  | case2 c rest name' after hfound ih =>
      obtain ⟨p', hp', heq⟩ := placeholder?_eq_some_iff.mp hfound
      have hafter : after.getLast? ≠ some '{' := by
        intro hlast
        rw [heq, List.getLast?_append, hlast, Option.some_or] at hpre
        exact hpre rfl
      rw [heq, List.append_assoc, pieces_append hp', pieces_append hp', ih hafter,
        List.cons_append]
  | case3 c rest hnone ih =>
      have hrest : rest.getLast? ≠ some '{' := by
        intro hlast
        rw [List.getLast?_cons, hlast] at hpre
        exact hpre rfl
      have hstill := placeholder?_append_eq_none hpre hp hnone post
      rw [List.cons_append] at hstill ⊢
      rw [pieces_cons hstill, pieces_cons hnone, ih hrest, List.cons_append]

/-- A text without placeholders falls apart into its characters. -/
theorem pieces_of_plain
    {cs : List Char}
    (h : ∀ name p, IsPlaceholder name p → ¬ p <:+: cs) :
    pieces cs = cs.map .plain := by
  induction cs with
  | nil => exact pieces_nil
  | cons c rest ih =>
      have hnone : placeholder? (c :: rest) = none := by
        rw [Option.eq_none_iff_forall_ne_some]
        rintro ⟨name, after⟩ hfound
        obtain ⟨p, hp, heq⟩ := placeholder?_eq_some_iff.mp hfound
        exact h name p hp (heq ▸ (List.prefix_append p after).isInfix)
      have hrest : ∀ name p, IsPlaceholder name p → ¬ p <:+: rest :=
        fun name p hp hin => h name p hp (hin.trans (List.suffix_cons c rest).isInfix)
      rw [pieces_cons hnone, ih hrest, List.map_cons]

/-- Every placeholder has a character of a name. -/
theorem IsPlaceholder.exists_namePart
    {name p : List Char}
    (h : IsPlaceholder name p) :
    ∃ c ∈ p, IsNamePart c := by
  obtain ⟨form, ⟨_, ⟨first, _⟩, _⟩⟩ := h
  exact ⟨_, by simp, .inl first⟩

/-- The text that a placeholder is rendered to: the value of its name as it is, or the placeholder
itself if its name has no value. -/
def filled (vars : Variables) (name : List Char) (p : String) : String :=
  match vars.lookup? name with
  | some t => Variables.valueText t
  | none => p

/-- A template is rendered by rendering what stands before and after a placeholder and writing the
value of its name in between; a text without placeholders stays as it is. -/
theorem render_placeholder
    (vars : Variables) :
    (∀ (pre post p : String) (name : List Char),
      pre.toList.getLast? ≠ some '{' → IsPlaceholder name p.toList →
        render (pre ++ p ++ post) vars =
          render pre vars ++ filled vars name p ++ render post vars) ∧
      ∀ content : String,
        (∀ name p, IsPlaceholder name p → ¬ p <:+: content.toList) →
          render content vars = content := by
  constructor
  · intro pre post p name hpre hp
    have hhole : String.ofList (Piece.render vars (.hole p.toList name)) = filled vars name p := by
      rw [Piece.render, filled]
      cases vars.lookup? name with
      | some t => exact String.ofList_toList
      | none => exact String.ofList_toList
    have hpieces : pieces (pre ++ p ++ post).toList =
        pieces pre.toList ++ .hole p.toList name :: pieces post.toList := by
      rw [String.toList_append, String.toList_append, List.append_assoc]
      exact pieces_placeholder hpre hp post.toList
    rw [render, hpieces, List.flatMap_append, List.flatMap_cons, String.ofList_append,
      String.ofList_append, hhole, ← String.append_assoc]
    rfl
  · intro content hplain
    have hcharacters : (content.toList.map Piece.plain).flatMap (Piece.render vars) =
        content.toList := by
      rw [List.flatMap_map]
      exact List.flatMap_singleton' content.toList
    rw [render, pieces_of_plain hplain, hcharacters, String.ofList_toList]

/-- A placeholder with an ampersand and a dotted name. -/
def firstItem : String := "\x7b\x7b&\tn.0 \x7d\x7d"

/-- Variables of which one holds a placeholder for the other. -/
def nestedVariables : Variables :=
  [("n", .list [.text "\x7b\x7bx\x7d\x7d"]), ("x", .text "1")]

/-- A value that holds a placeholder is not rendered again, braces beside a placeholder do not
belong to it, and braces around blanks are no placeholder. -/
theorem firstItem_render_placeholder :
    "\x7b\x7b a".toList.getLast? ≠ some '{' ∧
      IsPlaceholder ['n', '.', '0'] firstItem.toList ∧
      (∀ name p, IsPlaceholder name p → ¬ p <:+: "\x7b\x7b \x7d\x7d".toList) ∧
      render ("\x7b\x7b a" ++ firstItem ++ "\x7d\x7b\x7b x \x7d\x7d") nestedVariables =
        "\x7b\x7b a\x7b\x7bx\x7d\x7d\x7d1" ∧
      render "\x7b\x7b \x7d\x7d" nestedVariables = "\x7b\x7b \x7d\x7d" := by
  have hlast : "\x7b\x7b a".toList.getLast? ≠ some '{' := by decide
  have hname : IsName ['n', '.', '0'] := by
    refine .cons ?_ ?_
    · simp [IsNameStart]
    · simp [IsNamePart, IsNameStart]
  have hblanks : (∀ c ∈ ['\t'], Text.isBlank c = true) ∧ ∀ c ∈ [' '], Text.isBlank c = true := by
    simp [Text.isBlank]
  have hpadded : IsPadded ['n', '.', '0'] ['\t', 'n', '.', '0', ' '] :=
    .intro hblanks.1 hname hblanks.2
  have hp : IsPlaceholder ['n', '.', '0'] firstItem.toList := .intro .ampersand hpadded
  have hplain : ∀ name p, IsPlaceholder name p → ¬ p <:+: "\x7b\x7b \x7d\x7d".toList := by
    intro name p hp hin
    obtain ⟨c, hc, hpart⟩ := hp.exists_namePart
    have hcodes : ∀ d ∈ "\x7b\x7b \x7d\x7d".toList, d.toNat < 0x2D ∨ 0x7A < d.toNat := by
      simp
    have houtside := hcodes c (hin.subset hc)
    have hinside := hpart.bounds
    omega
  refine ⟨hlast, hp, hplain, ?_, ?_⟩
  · rw [(render_placeholder _).1 "\x7b\x7b a" _ firstItem ['n', '.', '0'] hlast hp]
    cbv
  · exact (render_placeholder _).2 "\x7b\x7b \x7d\x7d" hplain

end Template
end Provision
