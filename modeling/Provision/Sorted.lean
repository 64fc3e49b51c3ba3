/-!
# Increasing lists

Input:
* values of a type with an order, or values with a rank.

Algorithm:
* a value is put in front of the first greater one, unless it is there already;
* a value with a rank is put in front of the first one with a greater rank, so values of equal rank
  stay in order.

Results:
* `ofList before as` holds the values of `as` in increasing order without repetitions; `texts` does
  so for texts in the order of their code points;
* `byRank rank as` holds the values of `as` by increasing rank: it is a permutation of `as`
  (`byRank_perm`), and ranks do not decrease in it (`byRank_pairwise`).
-/

namespace Provision
namespace Sorted

variable {α : Type}

/-- Puts a value into an increasing list unless it is there. -/
def insert (before : α → α → Bool) (a : α) : List α → List α
  | [] => [a]
  | b :: rest =>
    if before a b then a :: b :: rest
    else if before b a then b :: insert before a rest
    else b :: rest

/-- The values of a list in increasing order without repetitions. -/
def ofList (before : α → α → Bool) (as : List α) : List α :=
  as.foldl (fun acc a => insert before a acc) []

def texts (xs : List String) : List String :=
  ofList (fun a b => a < b) xs

/-- Puts a value in front of the first one with a greater rank. -/
def insertByRank (rank : α → Nat) (a : α) : List α → List α
  | [] => [a]
  | b :: rest => if rank a < rank b then a :: b :: rest else b :: insertByRank rank a rest

/-- Puts values into a list one after the other. -/
def insertAllByRank (rank : α → Nat) (base as : List α) : List α :=
  as.foldl (fun acc a => insertByRank rank a acc) base

/-- The values by increasing rank; those of equal rank stay in order. -/
def byRank (rank : α → Nat) (as : List α) : List α :=
  insertAllByRank rank [] as

section Rank

variable (rank : α → Nat)

theorem insertByRank_perm
    (a : α)
    (as : List α) :
    (insertByRank rank a as).Perm (a :: as) := by
  induction as with
  | nil => exact List.Perm.refl _
  | cons b rest ih =>
      simp only [insertByRank]
      split
      · exact List.Perm.refl _
      · exact (ih.cons b).trans (List.Perm.swap a b rest)

theorem insertAllByRank_perm
    (base as : List α) :
    (insertAllByRank rank base as).Perm (base ++ as) := by
  induction as generalizing base with
  | nil => simp [insertAllByRank]
  | cons a rest ih =>
      refine (ih (insertByRank rank a base)).trans ?_
      refine ((insertByRank_perm rank a base).append_right rest).trans ?_
      exact List.perm_middle.symm

theorem byRank_perm
    (as : List α) :
    (byRank rank as).Perm as := by
  simpa [byRank] using insertAllByRank_perm rank [] as

theorem insertByRank_pairwise
    (a : α)
    {as : List α}
    (h : as.Pairwise fun x y => rank x ≤ rank y) :
    (insertByRank rank a as).Pairwise fun x y => rank x ≤ rank y := by
  induction as with
  | nil => exact List.pairwise_singleton _ _
  | cons b rest ih =>
      obtain ⟨hb, hrest⟩ := List.pairwise_cons.mp h
      simp only [insertByRank]
      split
      · rename_i hlt
        refine List.pairwise_cons.mpr ⟨?_, h⟩
        intro x hx
        rcases List.mem_cons.mp hx with rfl | hx
        · exact Nat.le_of_lt hlt
        · exact Nat.le_trans (Nat.le_of_lt hlt) (hb x hx)
      · rename_i hge
        refine List.pairwise_cons.mpr ⟨?_, ih hrest⟩
        intro x hx
        rcases List.mem_cons.mp ((insertByRank_perm rank a rest).mem_iff.mp hx) with rfl | hx
        · exact Nat.le_of_not_lt hge
        · exact hb x hx

theorem insertAllByRank_pairwise
    {base : List α}
    (as : List α)
    (h : base.Pairwise fun x y => rank x ≤ rank y) :
    (insertAllByRank rank base as).Pairwise fun x y => rank x ≤ rank y := by
  induction as generalizing base with
  | nil => exact h
  | cons a rest ih => exact ih (insertByRank_pairwise rank a h)

theorem byRank_pairwise
    (as : List α) :
    (byRank rank as).Pairwise fun x y => rank x ≤ rank y :=
  insertAllByRank_pairwise rank as List.Pairwise.nil

end Rank

end Sorted
end Provision
