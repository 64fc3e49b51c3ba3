import Provision.Json.Printer
import Provision.Proofs.Json.Draft
import Provision.Proofs.Json.Integer
import Provision.Proofs.Json.Text

/-!
# Trees that are read back

A tree is written with one line for each element.  The reader skips the line breaks and the space in
front of the lines, and every element ends where the next line, a comma or a closing mark stands.
So it finds the elements one by one, each with as many further levels of nesting as remain.  Reading
a value takes at most one step for each character it is written with.

**Results.**
* `Json.isReadBack`: a tree whose numbers are integers is read back, whatever follows it.
* `Json.read_pretty`: a tree in order, with integers only, is read back from its text.
* `Json.read_inOrder`: every tree that is read is in order.
-/

namespace Provision
namespace Json

section Lines

/-- The end of a line, and the space in front of the next one. -/
def lineBreak (level : Nat) : List Char :=
  '\n' :: (indent level).toList

/-- The parts of a block after the first one. -/
def furtherParts (level : Nat) (parts : List String) : List Char :=
  parts.flatMap fun p => ',' :: (lineBreak (level + 1) ++ p.toList)

theorem toList_intercalate_parts
    (level : Nat)
    (p : String)
    (parts : List String) :
    (",\n".intercalate ((p :: parts).map (indent (level + 1) ++ ·))).toList =
      (indent (level + 1)).toList ++ (p.toList ++ furtherParts level parts) := by
  induction parts generalizing p with
  | nil => simp [furtherParts]
  | cons p' parts ih =>
      have hcomma : (",\n" : String).toList = [',', '\n'] := rfl
      have hnext := ih p'
      rw [List.map_cons] at hnext
      rw [List.map_cons, List.map_cons, String.intercalate_cons_cons, String.toList_append, hnext]
      simp only [String.toList_append, hcomma, furtherParts, List.flatMap_cons, lineBreak,
        List.append_assoc, List.cons_append, List.nil_append]

/-- The characters of a block with at least one part. -/
theorem toList_block
    (opening closing : String)
    (level : Nat)
    (p : String)
    (parts : List String) :
    (block opening closing level (p :: parts)).toList =
      opening.toList ++ (lineBreak (level + 1) ++ (p.toList ++
        (furtherParts level parts ++ (lineBreak level ++ closing.toList)))) := by
  have hbreak : ("\n" : String).toList = ['\n'] := rfl
  rw [block, List.isEmpty_cons, if_neg Bool.false_ne_true]
  simp only [String.toList_append, toList_intercalate_parts, hbreak, lineBreak, List.append_assoc,
    List.cons_append, List.nil_append]

theorem furtherParts_cons
    (level : Nat)
    (p : String)
    (parts : List String)
    (cs : List Char) :
    furtherParts level (p :: parts) ++ cs =
      ',' :: (lineBreak (level + 1) ++ (p.toList ++ (furtherParts level parts ++ cs))) := by
  simp only [furtherParts, List.flatMap_cons, List.append_assoc, List.cons_append]

theorem length_lineBreak_pos
    (level : Nat) :
    0 < (lineBreak level).length :=
  Nat.zero_lt_succ _

theorem skipSpace_lineBreak
    (level : Nat)
    (cs : List Char) :
    skipSpace (lineBreak level ++ cs) = skipSpace cs := by
  refine List.dropWhile_append_of_pos fun c hc => ?_
  rcases List.mem_cons.mp hc with rfl | hc
  · decide
  · rw [indent, String.toList_ofList] at hc
    rw [List.eq_of_mem_replicate hc]
    decide

/-- A numeral ends at the next element and at the end of the last line. -/
theorem endsNumeral_furtherParts
    (level : Nat)
    (parts : List String)
    (cs : List Char) :
    EndsNumeral (furtherParts level parts ++ (lineBreak level ++ cs)) := by
  cases parts with
  | nil =>
      rintro c ⟨⟩
      decide
  | cons p parts =>
      rintro c ⟨⟩
      decide

end Lines

/-- A tree that is written at a level of nesting is read back, with a number of further levels, in
as many steps as its text has characters. -/
structure IsReadBack (level depth : Nat) (t : Tree) : Prop where
  /-- The text starts with no space and no closing bracket. -/
  starts : ∃ c cs, (prettyAt level t).toList = c :: cs ∧ isSpace c = false ∧ c ≠ ']'
  reads : ∀ (fuel : Nat) (rest : List Char),
    (prettyAt level t).toList.length ≤ fuel → EndsNumeral rest →
      readValue fuel depth ((prettyAt level t).toList ++ rest) = (Draft.ofTree t, some rest)

section Leaves

variable {level depth : Nat}

/-- A tree that is read in one step. -/
theorem isReadBack_of_step
    {t : Tree}
    (c : Char)
    (cs : List Char)
    (hchars : (prettyAt level t).toList = c :: cs)
    (hspace : isSpace c = false)
    (hclose : c ≠ ']')
    (hread : ∀ {rest}, EndsNumeral rest → ∀ fuel,
      readValue (fuel + 1) depth (c :: (cs ++ rest)) = (Draft.ofTree t, some rest)) :
    IsReadBack level depth t := by
  refine ⟨⟨c, cs, hchars, hspace, hclose⟩, fun fuel rest hfuel hrest => ?_⟩
  rw [hchars] at hfuel ⊢
  obtain ⟨fuel, rfl⟩ := Nat.exists_eq_add_one.mpr (Nat.zero_lt_of_lt hfuel)
  exact hread hrest fuel

theorem isReadBack_null :
    IsReadBack level depth .null := by
  refine isReadBack_of_step 'n' ['u', 'l', 'l'] ?_ (by decide) (by decide) ?_
  · rw [prettyAt]
    rfl
  · intro rest _ fuel
    rw [readValue, skipSpace_cons (by decide)]
    rfl

theorem isReadBack_bool
    (b : Bool) :
    IsReadBack level depth (.bool b) := by
  cases b with
  | true =>
      refine isReadBack_of_step 't' ['r', 'u', 'e'] ?_ (by decide) (by decide) ?_
      · rw [prettyAt]
        rfl
      · intro rest _ fuel
        rw [readValue, skipSpace_cons (by decide)]
        rfl
  | false =>
      refine isReadBack_of_step 'f' ['a', 'l', 's', 'e'] ?_ (by decide) (by decide) ?_
      · rw [prettyAt]
        rfl
      · intro rest _ fuel
        rw [readValue, skipSpace_cons (by decide)]
        rfl

theorem isReadBack_integer
    {i : Int}
    (hsound : (Number.integer i).Sound) :
    IsReadBack level depth (.number (.integer i)) := by
  obtain ⟨c, cs, hcons, hfirst⟩ := exists_text_integer_cons i
  have hspace : isSpace c = false := by
    obtain hdigit | rfl := hfirst
    · exact isSpace_of_isDigit hdigit
    · decide
  have hclose : c ≠ ']' := by
    obtain hdigit | rfl := hfirst
    · exact ne_of_isDigit hdigit rfl
    · decide
  refine isReadBack_of_step c cs ?_ hspace hclose ?_
  · rw [prettyAt, hcons]
  · intro rest hrest fuel
    have hread := readValue_integer hsound hrest fuel depth
    rw [hcons] at hread
    exact hread

theorem isReadBack_text
    (s : String) :
    IsReadBack level depth (.text s) := by
  refine isReadBack_of_step '"' (s.toList.flatMap escape ++ ['"']) ?_ (by decide) (by decide) ?_
  · rw [prettyAt, textForm, String.toList_ofList, List.cons_append]
  · intro rest _ fuel
    rw [readValue, skipSpace_cons (by decide), List.append_assoc]
    show Reading.ofStep Draft.text (readText (s.toList.flatMap escape ++ '"' :: rest)) = _
    rw [readText_escaped]
    rfl

end Leaves

section Items

variable {level depth : Nat}

theorem readItems_close
    (fuel depth : Nat)
    (isFirst : Bool)
    (level : Nat)
    (rest : List Char) :
    readItems (fuel + 1) depth isFirst (lineBreak level ++ ']' :: rest) = ([], some rest) := by
  rw [readItems, skipSpace_lineBreak, skipSpace_cons (by decide)]
  rfl

theorem readItems_first
    {c : Char}
    (hspace : isSpace c = false)
    (hclose : c ≠ ']')
    (fuel depth level : Nat)
    (cs : List Char) :
    readItems (fuel + 1) depth true (lineBreak level ++ c :: cs) =
      readItem fuel depth (c :: cs) := by
  rw [readItems, skipSpace_lineBreak, skipSpace_cons hspace]
  split
  · contradiction
  · rename_i h
    exact absurd (List.cons.inj h).1 hclose
  · rename_i h
    cases h
    exact if_pos rfl

theorem readItems_comma
    {c : Char}
    (hspace : isSpace c = false)
    (hclose : c ≠ ']')
    (fuel depth level : Nat)
    (cs : List Char) :
    readItems (fuel + 1) depth false (',' :: (lineBreak level ++ c :: cs)) =
      readItem fuel depth (c :: cs) := by
  rw [readItems, skipSpace_cons (by decide)]
  split
  · contradiction
  · rename_i h
    exact absurd (List.cons.inj h).1 (by decide)
  · rename_i h
    cases h
    rw [if_neg Bool.false_ne_true, if_pos rfl, skipSpace_lineBreak, skipSpace_cons hspace]
    split
    · contradiction
    · rename_i h
      exact absurd (List.cons.inj h).1 hclose
    · rfl

/-- An element is read, and then those after it. -/
theorem readItem_of_reads
    {fuel : Nat}
    {cs cs' : List Char}
    {d : Draft}
    {ds : List Draft}
    {rest : Option (List Char)}
    (hvalue : readValue fuel depth cs = (d, some cs'))
    (hitems : readItems fuel depth false cs' = (ds, rest)) :
    readItem (fuel + 1) depth cs = (d :: ds, rest) := by
  rw [readItem, hvalue]
  dsimp only
  rw [hitems]

/-- The elements after the first one are read back, up to the closing bracket. -/
theorem readItems_furtherParts
    {items : List Tree}
    (hitems : ∀ t ∈ items, IsReadBack (level + 1) depth t)
    (fuel : Nat)
    (hfuel : (furtherParts level (prettyItems (level + 1) items) ++ lineBreak level).length ≤ fuel)
    (rest : List Char) :
    readItems fuel depth false
        (furtherParts level (prettyItems (level + 1) items) ++
          (lineBreak level ++ ']' :: rest)) =
      (Draft.ofItems items, some rest) := by
  induction items generalizing fuel with
  | nil =>
      obtain ⟨fuel, rfl⟩ := Nat.exists_eq_add_one.mpr (Nat.zero_lt_of_lt hfuel)
      exact readItems_close fuel depth false level rest
  | cons t items ih =>
      obtain ⟨ht, hitems⟩ := List.forall_mem_cons.mp hitems
      rw [prettyItems, furtherParts_cons] at hfuel ⊢
      simp only [List.length_cons, List.length_append] at hfuel ih
      have hline := length_lineBreak_pos (level + 1)
      -- One step finds the comma, a second one takes the element apart from those after it.
      obtain ⟨fuel, rfl⟩ : ∃ n, fuel = n + 2 := ⟨fuel - 2, by omega⟩
      have hmore := ih hitems fuel (by omega)
      have hvalue := ht.reads fuel _ (by have := length_lineBreak_pos level; omega)
        (endsNumeral_furtherParts level (prettyItems (level + 1) items) (']' :: rest))
      obtain ⟨c, cs, hstart, hspace, hclose⟩ := ht.starts
      rw [hstart, List.cons_append] at hvalue ⊢
      rw [readItems_comma hspace hclose]
      exact readItem_of_reads hvalue hmore

theorem readValue_bracket
    (fuel depth : Nat)
    (cs : List Char) :
    readValue (fuel + 1) (depth + 1) ('[' :: cs) =
      (.list (readItems fuel depth true cs).1, (readItems fuel depth true cs).2) := by
  rw [readValue, skipSpace_cons (by decide)]
  rfl

theorem toList_prettyAt_list_nil :
    (prettyAt level (.list [])).toList = ['[', ']'] := by
  rw [prettyAt, prettyItems, block, List.isEmpty_nil, if_pos rfl, String.toList_append]
  rfl

theorem toList_prettyAt_list_cons
    (t : Tree)
    (items : List Tree) :
    (prettyAt level (.list (t :: items))).toList =
      '[' :: (lineBreak (level + 1) ++ ((prettyAt (level + 1) t).toList ++
        (furtherParts level (prettyItems (level + 1) items) ++
          (lineBreak level ++ [']'])))) := by
  rw [prettyAt, prettyItems, toList_block]
  rfl

/-- A list is read back if its elements are, with one more level of nesting. -/
theorem isReadBack_list
    {items : List Tree}
    (hitems : ∀ t ∈ items, IsReadBack (level + 1) depth t) :
    IsReadBack level (depth + 1) (.list items) := by
  cases items with
  | nil =>
      refine ⟨⟨'[', [']'], toList_prettyAt_list_nil, by decide, by decide⟩, ?_⟩
      intro fuel rest hfuel _
      rw [toList_prettyAt_list_nil] at hfuel ⊢
      obtain ⟨fuel, rfl⟩ : ∃ n, fuel = n + 2 := ⟨fuel - 2, (Nat.sub_add_cancel hfuel).symm⟩
      rw [List.cons_append, readValue_bracket, readItems]
      rfl
  | cons t items =>
      obtain ⟨ht, hitems⟩ := List.forall_mem_cons.mp hitems
      refine ⟨⟨'[', _, toList_prettyAt_list_cons t items, by decide, by decide⟩, ?_⟩
      intro fuel rest hfuel _
      rw [toList_prettyAt_list_cons] at hfuel ⊢
      simp only [List.length_cons, List.length_append, List.length_nil] at hfuel
      have hline := length_lineBreak_pos (level + 1)
      have hend := length_lineBreak_pos level
      -- One step finds the bracket, one the first element, and one takes it apart from the others.
      obtain ⟨fuel, rfl⟩ : ∃ n, fuel = n + 3 := ⟨fuel - 3, by omega⟩
      have hmore := readItems_furtherParts hitems fuel
        (by rw [List.length_append]; omega) rest
      have hvalue := ht.reads fuel _ (by omega)
        (endsNumeral_furtherParts level (prettyItems (level + 1) items) (']' :: rest))
      obtain ⟨c, cs, hstart, hspace, hclose⟩ := ht.starts
      simp only [List.cons_append, List.append_assoc, List.nil_append]
      rw [hstart, List.cons_append] at hvalue ⊢
      rw [readValue_bracket, readItems_first hspace hclose, readItem_of_reads hvalue hmore]
      rfl

end Items

section Entries

variable {level depth : Nat}

/-- The characters of a key and its value, behind the opening quote. -/
def entryForm (level : Nat) (key : String) (t : Tree) : List Char :=
  key.toList.flatMap escape ++ '"' :: ':' :: ' ' :: (prettyAt level t).toList

theorem toList_entry
    (level : Nat)
    (key : String)
    (t : Tree) :
    (textForm key ++ ": " ++ prettyAt level t).toList = '"' :: entryForm level key t := by
  have hcolon : (": " : String).toList = [':', ' '] := rfl
  simp only [textForm, entryForm, String.toList_append, String.toList_ofList, hcolon,
    List.append_assoc, List.cons_append, List.nil_append]

theorem readEntries_close
    (fuel depth : Nat)
    (isFirst : Bool)
    (level : Nat)
    (rest : List Char) :
    readEntries (fuel + 1) depth isFirst (lineBreak level ++ '}' :: rest) = ([], some rest) := by
  rw [readEntries, skipSpace_lineBreak, skipSpace_cons (by decide)]
  rfl

theorem readEntries_first
    (fuel depth level : Nat)
    (cs : List Char) :
    readEntries (fuel + 1) depth true (lineBreak level ++ '"' :: cs) = readEntry fuel depth cs := by
  rw [readEntries, skipSpace_lineBreak, skipSpace_cons (by decide)]
  rfl

theorem readEntries_comma
    (fuel depth level : Nat)
    (cs : List Char) :
    readEntries (fuel + 1) depth false (',' :: (lineBreak level ++ '"' :: cs)) =
      readEntry fuel depth cs := by
  rw [readEntries, skipSpace_cons (by decide)]
  split
  · contradiction
  · rename_i h
    exact absurd (List.cons.inj h).1 (by decide)
  · rename_i h
    cases h
    rw [if_neg Bool.false_ne_true, if_pos rfl, skipSpace_lineBreak, skipSpace_cons (by decide)]
    rfl

theorem readColon_cons
    (cs : List Char) :
    readColon (':' :: cs) = .ok cs := by
  rw [readColon, skipSpace_cons (by decide)]
  rfl

theorem readValue_space
    (fuel depth : Nat)
    (cs : List Char) :
    readValue (fuel + 1) depth (' ' :: cs) = readValue (fuel + 1) depth cs := by
  rw [readValue, readValue]
  rfl

/-- A key and its value are read, and then the entries after it. -/
theorem readEntry_of_reads
    {fuel : Nat}
    {key : String}
    {t : Tree}
    {cs : List Char}
    {es : List (String × Draft)}
    {rest : Option (List Char)}
    (hvalue : readValue (fuel + 1) depth ((prettyAt level t).toList ++ cs) =
      (Draft.ofTree t, some cs))
    (hentries : readEntries (fuel + 1) depth false cs = (es, rest)) :
    readEntry (fuel + 2) depth (entryForm level key t ++ cs) =
      ((key, Draft.ofTree t) :: es, rest) := by
  rw [entryForm, List.append_assoc, List.cons_append, List.cons_append, List.cons_append, readEntry,
    readText_escaped]
  dsimp only
  rw [readColon_cons]
  dsimp only
  rw [readValue_space, hvalue]
  dsimp only
  rw [hentries]

/-- The entries after the first one are read back, up to the closing brace. -/
theorem readEntries_furtherParts
    {entries : List (String × Tree)}
    (hentries : ∀ e ∈ entries, IsReadBack (level + 1) depth e.2)
    (fuel : Nat)
    (hfuel :
      (furtherParts level (prettyEntries (level + 1) entries) ++ lineBreak level).length ≤ fuel)
    (rest : List Char) :
    readEntries fuel depth false
        (furtherParts level (prettyEntries (level + 1) entries) ++
          (lineBreak level ++ '}' :: rest)) =
      (Draft.ofEntries entries, some rest) := by
  induction entries generalizing fuel with
  | nil =>
      obtain ⟨fuel, rfl⟩ := Nat.exists_eq_add_one.mpr (Nat.zero_lt_of_lt hfuel)
      exact readEntries_close fuel depth false level rest
  | cons e entries ih =>
      obtain ⟨key, t⟩ := e
      obtain ⟨ht, hentries⟩ := List.forall_mem_cons.mp hentries
      dsimp only at ht
      rw [prettyEntries, furtherParts_cons, toList_entry] at hfuel ⊢
      simp only [entryForm, List.length_cons, List.length_append] at hfuel ih
      -- One step finds the comma, one takes the entry apart from those after it, and its key is
      -- longer than the step that is left.
      obtain ⟨fuel, rfl⟩ : ∃ n, fuel = n + 3 := ⟨fuel - 3, by omega⟩
      have hmore := ih hentries (fuel + 1) (by omega)
      have hvalue := ht.reads (fuel + 1) _ (by omega)
        (endsNumeral_furtherParts level (prettyEntries (level + 1) entries) ('}' :: rest))
      rw [List.cons_append, readEntries_comma]
      exact readEntry_of_reads hvalue hmore

theorem readValue_brace
    (fuel depth : Nat)
    (cs : List Char) :
    readValue (fuel + 1) (depth + 1) ('{' :: cs) =
      (.object (readEntries fuel depth true cs).1, (readEntries fuel depth true cs).2) := by
  rw [readValue, skipSpace_cons (by decide)]
  rfl

theorem toList_prettyAt_object_nil :
    (prettyAt level (.object [])).toList = ['{', '}'] := by
  rw [prettyAt, prettyEntries, block, List.isEmpty_nil, if_pos rfl, String.toList_append]
  rfl

theorem toList_prettyAt_object_cons
    (key : String)
    (t : Tree)
    (entries : List (String × Tree)) :
    (prettyAt level (.object ((key, t) :: entries))).toList =
      '{' :: (lineBreak (level + 1) ++ '"' :: (entryForm (level + 1) key t ++
        (furtherParts level (prettyEntries (level + 1) entries) ++
          (lineBreak level ++ ['}'])))) := by
  rw [prettyAt, prettyEntries, toList_block, toList_entry]
  rfl

/-- An object is read back if its values are, with one more level of nesting. -/
theorem isReadBack_object
    {entries : List (String × Tree)}
    (hentries : ∀ e ∈ entries, IsReadBack (level + 1) depth e.2) :
    IsReadBack level (depth + 1) (.object entries) := by
  cases entries with
  | nil =>
      refine ⟨⟨'{', ['}'], toList_prettyAt_object_nil, by decide, by decide⟩, ?_⟩
      intro fuel rest hfuel _
      rw [toList_prettyAt_object_nil] at hfuel ⊢
      obtain ⟨fuel, rfl⟩ : ∃ n, fuel = n + 2 := ⟨fuel - 2, (Nat.sub_add_cancel hfuel).symm⟩
      rw [List.cons_append, readValue_brace, readEntries]
      rfl
  | cons e entries =>
      obtain ⟨key, t⟩ := e
      obtain ⟨ht, hentries⟩ := List.forall_mem_cons.mp hentries
      dsimp only at ht
      refine ⟨⟨'{', _, toList_prettyAt_object_cons key t entries, by decide, by decide⟩, ?_⟩
      intro fuel rest hfuel _
      rw [toList_prettyAt_object_cons] at hfuel ⊢
      simp only [entryForm, List.length_cons, List.length_append, List.length_nil] at hfuel
      -- One step finds the brace, one the first key, and one takes the entry apart from the others.
      obtain ⟨fuel, rfl⟩ : ∃ n, fuel = n + 4 := ⟨fuel - 4, by omega⟩
      have hmore := readEntries_furtherParts hentries (fuel + 1)
        (by rw [List.length_append]; omega) rest
      have hvalue := ht.reads (fuel + 1) _ (by omega)
        (endsNumeral_furtherParts level (prettyEntries (level + 1) entries) ('}' :: rest))
      simp only [List.cons_append, List.append_assoc, List.nil_append]
      rw [readValue_brace, readEntries_first, readEntry_of_reads hvalue hmore]
      rfl

end Entries

/-- A tree whose numbers are integers is read back, if it nests no deeper than levels remain. -/
theorem isReadBack
    {t : Tree}
    (hintegral : t.Integral)
    {depth : Nat}
    (hdepth : t.depth ≤ depth)
    (level : Nat) :
    IsReadBack level depth t := by
  induction hintegral generalizing level depth with
  | null => exact isReadBack_null
  | bool b => exact isReadBack_bool b
  | integer hsound => exact isReadBack_integer hsound
  | text s => exact isReadBack_text s
  | list _ ih =>
      obtain ⟨depth, rfl⟩ := Nat.exists_eq_add_one.mpr (Nat.zero_lt_of_lt hdepth)
      exact isReadBack_list fun t ht => ih t ht (Tree.depth_list_le_iff.mp hdepth t ht) (level + 1)
  | object _ ih =>
      obtain ⟨depth, rfl⟩ := Nat.exists_eq_add_one.mpr (Nat.zero_lt_of_lt hdepth)
      exact isReadBack_object fun e he =>
        ih e he (Tree.depth_object_le_iff.mp hdepth e he) (level + 1)

/-- Every tree that is read is in order. -/
theorem read_inOrder
    {text : String}
    {t : Tree}
    (h : read text = .ok t) :
    t.InOrder := by
  obtain ⟨t', ht, hend⟩ := bind_eq_ok_iff.mp h
  obtain ⟨_, _, heq⟩ := bind_eq_ok_iff.mp hend
  cases heq
  exact Draft.inOrder_of_toTree ht

/-- The text of a tree is read to its end. -/
theorem readDraft_pretty
    {t : Tree}
    (hintegral : t.Integral)
    {depth : Nat}
    (hdepth : t.depth ≤ depth) :
    readDraft depth (pretty t) = (Draft.ofTree t, some []) := by
  have hfuel : (pretty t).toList.length ≤ 3 * (pretty t).length + 3 := by
    rw [String.length_toList]
    omega
  have hread := (isReadBack hintegral hdepth 0).reads _ [] hfuel nofun
  rw [List.append_nil] at hread
  exact hread

/-- A tree in order, with integers only, is read back from its text. -/
theorem read_pretty
    {t : Tree}
    (hordered : t.InOrder)
    (hintegral : t.Integral)
    (hdepth : t.depth ≤ nestingLimit) :
    read (pretty t) = .ok t := by
  rw [read, readWithin, readDraft_pretty hintegral hdepth]
  dsimp only
  rw [Draft.toTree_ofTree hordered]
  rfl

end Json

end Provision
