import Provision.Text.Lower

/-!
# Names up to spelling

Input:
* two names, such as a key of a document and a field that a configuration declares.

Algorithm:
* the folded form of a name drops `_` and `-` and writes every remaining character in lower case.

Results:
* two names are the same when their folded forms are equal; this is an equivalence
  (`sameName_refl`, `sameName_symm`, `sameName_trans`).
-/

namespace Provision
namespace Text

def foldName (s : String) : List Char :=
  (s.toList.filter fun c => c != '_' && c != '-').flatMap lower

/-- Whether two names differ in spelling only. -/
def sameName (a b : String) : Bool :=
  foldName a == foldName b

@[simp] theorem sameName_iff
    {a b : String} :
    sameName a b = true ↔ foldName a = foldName b := by
  simp [sameName]

theorem sameName_refl
    (a : String) :
    sameName a a = true := by
  simp

theorem sameName_symm
    {a b : String}
    (h : sameName a b = true) :
    sameName b a = true := by
  simp_all

theorem sameName_trans
    {a b c : String}
    (hab : sameName a b = true)
    (hbc : sameName b c = true) :
    sameName a c = true := by
  simp_all

/-- The listed name that a spelling stands for: the one equal to it, else the first that is the
same name. -/
def findName? (names : List String) (spelling : String) : Option String :=
  match names.find? (· == spelling) with
  | some n => some n
  | none => names.find? (sameName · spelling)

end Text
end Provision
