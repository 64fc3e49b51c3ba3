import Provision.Json.Decoder
import Provision.Proofs.Json.RoundTrip

/-!
# Decoding what was written

A decoder goes through the draft of a text.  The draft of a text that a tree was written to is that of
the tree, so what the decoder gives for the text can be told from the tree.  The fields of a record
are decoded one by one: if the entries of an object are the fields in order, under different names,
then every entry is met once and no field is missing.

**Results.**
* `Json.Slots.Filled.decodes`: a record is decoded from its fields.
* `Json.decodeText_pretty`: the text of a tree is decoded to what the tree is decoded to.
-/

namespace Provision
namespace Json

/-- What a tree is decoded to. -/
def Decodes {α : Type} (decoder : Decoder α) (t : Tree) (a : α) : Prop :=
  decoder (Draft.ofTree t) = .ok a

section Values

variable {α : Type}

theorem decodes_text
    (s : String) :
    Decodes Decoder.text (.text s) s :=
  rfl

theorem decodes_size
    {n : Nat}
    (h : n < Number.twoTo 64) :
    Decodes Decoder.size (.nat n) n := by
  have hrange : (0 : Int) ≤ n ∧ (n : Int) < Number.twoTo 64 := by omega
  rw [Decodes, Tree.nat, Tree.int, Draft.ofTree, Decoder.size, if_pos hrange, Int.toNat_natCast]

theorem decodes_choice
    {options : List (String × α)}
    {label : String}
    {a : α}
    (h : Decoder.labelled options label = .ok a) :
    Decodes (Decoder.choice options) (.text label) a :=
  h

theorem decodes_list
    {decoder : Decoder α}
    {write : α → Tree}
    {as : List α}
    (h : ∀ a ∈ as, Decodes decoder (write a) a) :
    Decodes (Decoder.list decoder) (.list (as.map write)) as := by
  show Decoder.each decoder (Draft.ofItems (as.map write)) = .ok as
  induction as with
  | nil => rfl
  | cons a rest ih =>
      obtain ⟨ha, hrest⟩ := List.forall_mem_cons.mp h
      rw [List.map_cons, Draft.ofItems, Decoder.each]
      exact bind_eq_ok_iff.mpr ⟨a, ha, bind_eq_ok_iff.mpr ⟨rest, ih hrest, rfl⟩⟩

/-- An optional value is null or what its decoder gives, which null itself is not. -/
theorem decodes_optional
    {decoder : Decoder α}
    {write : α → String}
    {settle : α → α}
    {a? : Option α}
    (h : ∀ a ∈ a?, Decodes decoder (.text (write a)) (settle a)) :
    Decodes (Decoder.optional decoder) (.ofOption (fun a => .text (write a)) a?)
      (a?.map settle) := by
  cases a? with
  | none => rfl
  | some a => exact map_eq_ok_iff.mpr ⟨settle a, h a rfl, rfl⟩

theorem decodes_treeEntries
    {entries : Entries Tree}
    (h : (Tree.object entries).InOrder) :
    Decodes Decoder.treeEntries (.object entries) entries := by
  obtain ⟨hordered, hentries⟩ := Tree.inOrder_object.mp h
  rw [Decodes, Draft.ofTree, Decoder.treeEntries,
    Draft.entryTrees_ofEntries fun e he => Draft.toTree_ofTree (hentries e he)]
  exact congrArg Except.ok (Entries.ofList_of_ordered hordered)

end Values

/-! ## Records -/

namespace Slots

/-- The names of the fields in order. -/
def names {β γ : Type} : Slots β γ → List String
  | .nil => []
  | .cons name _ _ rest => name :: rest.names

/-- All fields as they have been met. -/
def all {β γ : Type} : Slots β γ → β → γ
  | .nil, () => ()
  | .cons _ _ _ rest, (a, b) => (some a, rest.all b)

/-- Entries that are the fields of a record in order. -/
inductive Filled : {β γ : Type} → Slots β γ → List (String × Tree) → β → Prop
  | nil :
      Filled .nil [] ()
  | cons
      {α β γ : Type}
      {name : String}
      {decoder : Decoder α}
      {absence : Absence α}
      {slots : Slots β γ}
      {t : Tree}
      {a : α}
      {entries : List (String × Tree)}
      {b : β}
      (value : Decodes decoder t a)
      (rest : Filled slots entries b) :
      Filled (.cons name decoder absence slots) ((name, t) :: entries) (a, b)

theorem finish_all
    {β γ : Type}
    (slots : Slots β γ)
    (b : β) :
    slots.finish (slots.all b) = .ok b := by
  induction slots with
  | nil => rfl
  | cons name decoder absence rest ih =>
      obtain ⟨a, b⟩ := b
      exact bind_eq_ok_iff.mpr ⟨a, rfl, bind_eq_ok_iff.mpr ⟨b, ih b, rfl⟩⟩

/-- A field that was met stays as it is while others are met. -/
theorem meetAll_cons
    {α β γ : Type}
    {name : String}
    {decoder : Decoder α}
    {absence : Absence α}
    {slots : Slots β γ}
    {entries : List (String × Draft)}
    (h : ∀ e ∈ entries, e.1 ≠ name)
    {known : Option α}
    {met met' : γ}
    (hrest : slots.meetAll entries met = .ok met') :
    (Slots.cons name decoder absence slots).meetAll entries (known, met) = .ok (known, met') := by
  induction entries generalizing met with
  | nil =>
      cases hrest
      rfl
  | cons e entries ih =>
      obtain ⟨key, d⟩ := e
      obtain ⟨hname, hentries⟩ := List.forall_mem_cons.mp h
      obtain ⟨between, hmeet, hall⟩ := bind_eq_ok_iff.mp hrest
      refine bind_eq_ok_iff.mpr ⟨(known, between), ?_, ih hentries hall⟩
      exact (if_neg hname).trans (map_eq_ok_iff.mpr ⟨between, hmeet, rfl⟩)

variable {β γ : Type} {slots : Slots β γ} {entries : List (String × Tree)} {b : β}

theorem Filled.keys_eq
    (h : Filled slots entries b) :
    (Draft.ofEntries entries).map (·.1) = slots.names := by
  induction h with
  | nil => rfl
  | cons _ _ ih => rw [Draft.ofEntries, List.map_cons, ih, names]

/-- Every field is met once. -/
theorem Filled.meetAll
    (h : Filled slots entries b)
    (hnames : slots.names.Nodup) :
    slots.meetAll (Draft.ofEntries entries) slots.none = .ok (slots.all b) := by
  induction h with
  | nil => rfl
  | @cons α β γ name decoder absence slots t a entries b value rest ih =>
      obtain ⟨hname, hothers⟩ := List.nodup_cons.mp hnames
      refine bind_eq_ok_iff.mpr ⟨(some a, slots.none), ?_, meetAll_cons ?_ (ih hothers)⟩
      · exact (if_pos rfl).trans (map_eq_ok_iff.mpr ⟨a, value, rfl⟩)
      · intro e he heq
        exact hname (rest.keys_eq ▸ heq ▸ List.mem_map_of_mem he)

/-- A record is decoded from its fields. -/
theorem Filled.decodes
    (h : Filled slots entries b)
    (hnames : slots.names.Nodup)
    (title : String) :
    Decodes (record title slots) (.object entries) b :=
  bind_eq_ok_iff.mpr ⟨_, h.meetAll hnames, finish_all slots b⟩

end Slots

/-- The text of a tree is decoded to what the tree is decoded to. -/
theorem decodeText_pretty
    {α : Type}
    {decoder : Decoder α}
    {t : Tree}
    {a : α}
    (h : Decodes decoder t a)
    (hintegral : t.Integral)
    (hdepth : t.depth ≤ nestingLimit) :
    decodeText decoder (pretty t) = .ok a := by
  rw [decodeText, readDraft_pretty hintegral hdepth]
  exact bind_eq_ok_iff.mpr ⟨a, h, rfl⟩

end Json
end Provision
