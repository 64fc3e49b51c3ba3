/-!
# Parts of a text

Input:
* characters and a separator, or a text and what it may start with.

Algorithm:
* `split` cuts at every separator, so that a text with `n` separators has `n + 1` parts;
* `cuts` lists the places where a text can be cut at one separator, from left to right.

Results:
* a text starts so iff it is the start with what follows it (`dropStart?_eq_some_iff`);
* the parts of a text without the separator are the text itself (`split_of_not_mem`), and the parts
  of two texts with a separator in between are those of both (`split_append`);
* the parts are the texts without a separator that make up the text (`split_eq_iff`);
* a text can be cut where it has a separator, and later cuts leave more in front (`mem_cuts_iff`,
  `cuts_pairwise`); the last cut is at the last separator (`getLast?_cuts_eq_some_iff`).
-/

namespace Provision
namespace Text

def split (sep : Char) : List Char → List (List Char)
  | [] => [[]]
  | c :: cs =>
    if c = sep then [] :: split sep cs
    else
      match split sep cs with
      | part :: parts => (c :: part) :: parts
      | [] => [[c]]

/-- What stands before and after a separator, for each separator from left to right. -/
def cuts (sep : Char) : List Char → List (List Char × List Char)
  | [] => []
  | c :: cs =>
    let later := (cuts sep cs).map fun cut => (c :: cut.1, cut.2)
    if c = sep then ([], cs) :: later else later

/-- The parts of a text between separators. -/
def splitText (sep : Char) (s : String) : List String :=
  (split sep s.toList).map String.ofList

/-- The characters after a given start, if they start so. -/
def afterStart? : List Char → List Char → Option (List Char)
  | [], cs => some cs
  | _ :: _, [] => none
  | s :: start, c :: cs => if s = c then afterStart? start cs else none

/-- The text after a given start, if it starts so. -/
def dropStart? (start s : String) : Option String :=
  (afterStart? start.toList s.toList).map String.ofList

/-- A start and what follows it make up the characters. -/
theorem afterStart?_eq_some_iff
    {start cs rest : List Char} :
    afterStart? start cs = some rest ↔ cs = start ++ rest := by
  induction start generalizing cs with
  | nil => simp [afterStart?]
  | cons s start ih =>
      cases cs with
      | nil => simp [afterStart?]
      | cons c cs =>
          simp only [afterStart?, List.cons_append, List.cons.injEq]
          split
          · rename_i hsc
            simp [ih, hsc]
          · rename_i hsc
            simp [Ne.symm hsc]

theorem dropStart?_eq_some_iff
    {start s rest : String} :
    dropStart? start s = some rest ↔ s = start ++ rest := by
  rw [dropStart?, Option.map_eq_some_iff, ← String.toList_inj, String.toList_append]
  constructor
  · rintro ⟨cs, hcs, rfl⟩
    rw [afterStart?_eq_some_iff.mp hcs, String.toList_ofList]
  · intro h
    exact ⟨rest.toList, afterStart?_eq_some_iff.mpr h, String.ofList_toList⟩

theorem split_of_not_mem
    {sep : Char}
    {cs : List Char}
    (h : sep ∉ cs) :
    split sep cs = [cs] := by
  induction cs with
  | nil => rfl
  | cons c cs ih =>
      have hc : c ≠ sep := fun e => h (e ▸ List.mem_cons_self)
      have hcs : sep ∉ cs := fun m => h (List.mem_cons_of_mem _ m)
      simp [split, hc, ih hcs]

theorem split_ne_nil
    (sep : Char)
    (cs : List Char) :
    split sep cs ≠ [] := by
  cases cs with
  | nil => exact List.cons_ne_nil _ _
  | cons c cs =>
      rw [split]
      split
      · exact List.cons_ne_nil _ _
      · split
        · exact List.cons_ne_nil _ _
        · exact List.cons_ne_nil _ _

/-- The parts before and after a separator. -/
theorem split_append
    (sep : Char)
    (first second : List Char) :
    split sep (first ++ sep :: second) = split sep first ++ split sep second := by
  induction first with
  | nil => simp [split]
  | cons c first ih =>
      rw [List.cons_append, split, split, ih]
      by_cases hc : c = sep
      · simp [hc]
      · cases hfirst : split sep first with
        | nil => exact absurd hfirst (split_ne_nil sep first)
        | cons part parts => simp [hc]

/-- A text that is made up of parts without the separator, with a separator between any two. -/
inductive Parted (sep : Char) : List (List Char) → List Char → Prop
  | last
      {part : List Char}
      (whole : sep ∉ part) :
      Parted sep [part] part
  | cons
      {part cs : List Char}
      {parts : List (List Char)}
      (whole : sep ∉ part)
      (later : Parted sep parts cs) :
      Parted sep (part :: parts) (part ++ sep :: cs)

theorem parted_split
    (sep : Char)
    (cs : List Char) :
    Parted sep (split sep cs) cs := by
  induction cs with
  | nil => exact .last List.not_mem_nil
  | cons c cs ih =>
      by_cases hc : c = sep
      · rw [split, if_pos hc, hc]
        exact .cons List.not_mem_nil ih
      · have hfirst : ∀ {part : List Char}, sep ∉ part → sep ∉ c :: part := fun hpart hmem =>
          (List.mem_cons.mp hmem).elim (fun heq => hc heq.symm) hpart
        rw [split, if_neg hc]
        generalize split sep cs = parts at ih
        cases ih with
        | last whole => exact .last (hfirst whole)
        | cons whole later => exact .cons (hfirst whole) later

/-- A text is split into the parts that make it up. -/
theorem split_eq_iff
    {sep : Char}
    {cs : List Char}
    {parts : List (List Char)} :
    split sep cs = parts ↔ Parted sep parts cs := by
  constructor
  · rintro rfl
    exact parted_split sep cs
  · intro h
    induction h with
    | last whole => exact split_of_not_mem whole
    | cons whole later ih => rw [split_append, split_of_not_mem whole, ih, List.singleton_append]

/-- Parts without the separator are found again in the text that they make up. -/
theorem splitText_intercalate
    {parts : List String}
    (hne : parts ≠ [])
    (h : ∀ part ∈ parts, '/' ∉ part.toList) :
    splitText '/' ("/".intercalate parts) = parts := by
  induction parts with
  | nil => exact absurd rfl hne
  | cons part rest ih =>
      obtain ⟨hpart, hrest⟩ := List.forall_mem_cons.mp h
      cases rest with
      | nil =>
          rw [String.intercalate_singleton, splitText, split_of_not_mem hpart, List.map_singleton,
            String.ofList_toList]
      | cons next rest =>
          have hcharacters : ("/".intercalate (part :: next :: rest)).toList =
              part.toList ++ '/' :: ("/".intercalate (next :: rest)).toList := by
            have hslash : ("/" : String).toList = ['/'] := rfl
            rw [String.intercalate_cons_cons, String.toList_append, String.toList_append, hslash,
              List.append_assoc, List.singleton_append]
          rw [splitText, hcharacters, split_append, split_of_not_mem hpart, List.map_append,
            List.map_singleton, String.ofList_toList, List.singleton_append]
          exact congrArg (part :: ·) (ih (List.cons_ne_nil next rest) hrest)

theorem cuts_eq_nil_iff
    {sep : Char}
    {cs : List Char} :
    cuts sep cs = [] ↔ sep ∉ cs := by
  induction cs with
  | nil => simp [cuts]
  | cons c cs ih =>
      rw [cuts]
      split
      · rename_i hc
        simp [hc]
      · rename_i hc
        simp [ih, Ne.symm hc]

/-- A text can be cut wherever it has a separator. -/
theorem mem_cuts_iff
    {sep : Char}
    {cs before after : List Char} :
    (before, after) ∈ cuts sep cs ↔ cs = before ++ sep :: after := by
  induction cs generalizing before with
  | nil => simp [cuts]
  | cons c cs ih =>
      have hlater : (before, after) ∈ (cuts sep cs).map (fun cut => (c :: cut.1, cut.2)) ↔
          before ≠ [] ∧ c :: cs = before ++ sep :: after := by
        cases before with
        | nil => simp
        | cons first front =>
            rw [List.mem_map]
            constructor
            · rintro ⟨cut, hcut, heq⟩
              cases heq
              exact ⟨List.cons_ne_nil _ _, by rw [ih.mp hcut, List.cons_append]⟩
            · rintro ⟨_, heq⟩
              obtain ⟨rfl, hcs⟩ := List.cons.inj heq
              exact ⟨(front, after), ih.mpr hcs, rfl⟩
      rw [cuts]
      split
      · rename_i hc
        rw [List.mem_cons, hlater, hc]
        cases before with
        | nil => simp [eq_comm]
        | cons first front => simp
      · rename_i hc
        rw [hlater, and_iff_right_iff_imp]
        rintro heq rfl
        exact hc (List.cons.inj heq).1

/-- Later cuts leave more in front. -/
theorem cuts_pairwise
    (sep : Char)
    (cs : List Char) :
    (cuts sep cs).Pairwise fun cut later => cut.1.length < later.1.length := by
  induction cs with
  | nil => exact List.Pairwise.nil
  | cons c cs ih =>
      have hlater : ((cuts sep cs).map fun cut => (c :: cut.1, cut.2)).Pairwise
          fun cut later => cut.1.length < later.1.length :=
        List.pairwise_map.mpr (ih.imp Nat.succ_lt_succ)
      rw [cuts]
      split
      · refine List.pairwise_cons.mpr ⟨fun cut hcut => ?_, hlater⟩
        obtain ⟨_, _, rfl⟩ := List.mem_map.mp hcut
        exact Nat.succ_pos _
      · exact hlater

/-- The last cut is at the last separator. -/
theorem getLast?_cuts_eq_some_iff
    {sep : Char}
    {cs before after : List Char} :
    (cuts sep cs).getLast? = some (before, after) ↔ cs = before ++ sep :: after ∧ sep ∉ after := by
  induction cs generalizing before with
  | nil => simp [cuts]
  | cons c cs ih =>
      have hlater : ((cuts sep cs).map fun cut => (c :: cut.1, cut.2)).getLast? =
          some (before, after) ↔
            before ≠ [] ∧ c :: cs = before ++ sep :: after ∧ sep ∉ after := by
        rw [List.getLast?_map, Option.map_eq_some_iff]
        cases before with
        | nil => simp
        | cons first front =>
            constructor
            · rintro ⟨cut, hcut, heq⟩
              cases heq
              obtain ⟨hcs, hafter⟩ := ih.mp hcut
              exact ⟨List.cons_ne_nil _ _, by rw [hcs, List.cons_append], hafter⟩
            · rintro ⟨_, hcs, hafter⟩
              obtain ⟨rfl, hfront⟩ := List.cons.inj hcs
              exact ⟨(front, after), ih.mpr ⟨hfront, hafter⟩, rfl⟩
      rw [cuts]
      split
      · rename_i hc
        subst hc
        by_cases hmem : c ∈ cs
        · have hne : (cuts c cs).map (fun cut => (c :: cut.1, cut.2)) ≠ [] := by
            simpa [cuts_eq_nil_iff] using hmem
          rw [List.getLast?_cons_of_ne_nil hne, hlater, and_iff_right_iff_imp]
          rintro ⟨hcs, hafter⟩ rfl
          exact hafter ((List.cons.inj hcs).2 ▸ hmem)
        · rw [cuts_eq_nil_iff.mpr hmem]
          constructor
          · intro h
            cases h
            exact ⟨rfl, hmem⟩
          · rintro ⟨hcs, _⟩
            cases before with
            | nil => rw [(List.cons.inj hcs).2]; rfl
            | cons first front =>
                exact absurd ((List.cons.inj hcs).2 ▸ List.mem_append_right _ List.mem_cons_self) hmem
      · rename_i hc
        rw [hlater, and_iff_right_iff_imp]
        rintro ⟨hcs, _⟩ rfl
        exact hc (List.cons.inj hcs).1

end Text
end Provision
