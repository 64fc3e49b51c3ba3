/-!
# Blank characters

Input:
* a character or a text.

Algorithm:
* `isBlank` is the Unicode property White_Space: the ASCII blanks from tab to carriage return, the
  space, the next-line and no-break characters, and the spaces and separators of general punctuation;
* `trim` drops blanks at both ends.

Results:
* no blanks are dropped in front of another character (`dropBlanks_cons`).
-/

namespace Provision
namespace Text

/-- Whether a character has the Unicode property White_Space. -/
def isBlank (c : Char) : Bool :=
  let n := c.toNat
  (0x9 ≤ n && n ≤ 0xD) || n == 0x20 || n == 0x85 || n == 0xA0 || n == 0x1680 ||
    (0x2000 ≤ n && n ≤ 0x200A) || n == 0x2028 || n == 0x2029 || n == 0x202F || n == 0x205F ||
    n == 0x3000

/-- Characters without the blanks at the front. -/
def dropBlanks (cs : List Char) : List Char :=
  cs.dropWhile isBlank

theorem dropBlanks_cons
    {c : Char}
    (h : isBlank c = false)
    (rest : List Char) :
    dropBlanks (c :: rest) = c :: rest :=
  List.dropWhile_cons_of_neg (by simp [h])

/-- Characters without the blanks at both ends. -/
def trimChars (cs : List Char) : List Char :=
  (dropBlanks (dropBlanks cs).reverse).reverse

/-- Text without the blanks at both ends. -/
def trim (s : String) : String :=
  String.ofList (trimChars s.toList)

end Text
end Provision
