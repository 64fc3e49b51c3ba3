import Provision.Tree

/-!
# The meaning of plain scalars

Input:
* the text of a plain scalar.

Algorithm:
* the empty text and the spellings of null are null, the spellings of the truth values are truth
  values;
* an integer is decimal, or hexadecimal, octal or binary after `0x`, `0o` or `0b`, with a sign; a
  decimal number that starts with a superfluous zero is a text;
* a decimal number with a point or an exponent is read to the nearest double-precision number, and is
  a text beyond the largest one; every other text is a text.

Results:
* `Plain.ofText s` is the value a plain scalar stands for, or none for an integer that fits 128 bits
  but not 64.
-/

namespace Provision
namespace Yaml
namespace Plain

/-- Whether a text is a spelling of null. -/
def isNull (cs : List Char) : Bool :=
  ["null", "Null", "NULL", "~"].any fun s => s.toList == cs

def bool? (cs : List Char) : Option Bool :=
  if ["true", "True", "TRUE"].any fun s => s.toList == cs then some true
  else if ["false", "False", "FALSE"].any fun s => s.toList == cs then some false
  else none

/-- The value of a digit in a base up to sixteen. -/
def digit? (base : Nat) (c : Char) : Option Nat :=
  let v :=
    if '0' ≤ c && c ≤ '9' then some (c.toNat - '0'.toNat)
    else if 'a' ≤ c && c ≤ 'f' then some (c.toNat - 'a'.toNat + 10)
    else if 'A' ≤ c && c ≤ 'F' then some (c.toNat - 'A'.toNat + 10)
    else none
  v.filter (· < base)

/-- The number that digits of a base stand for; there must be at least one. -/
def natural? (base : Nat) (cs : List Char) : Option Nat :=
  if cs.isEmpty then none
  else
    cs.foldl (fun acc c => acc.bind fun n => (digit? base c).map fun d => n * base + d) (some 0)

/-- Whether a text is a row of digits with a superfluous zero in front. -/
def hasSuperfluousZero (cs : List Char) : Bool :=
  let digits :=
    match cs with
    | '-' :: rest => rest
    | '+' :: rest => rest
    | _ => cs
  match digits with
  | '0' :: rest => !rest.isEmpty && rest.all Char.isDigit
  | _ => false

/-- The absolute value of an integer without its sign. -/
def unsigned? (cs : List Char) : Option Nat :=
  match cs with
  | '0' :: 'x' :: rest => natural? 16 rest
  | '0' :: 'o' :: rest => natural? 8 rest
  | '0' :: 'b' :: rest => natural? 2 rest
  | _ => if hasSuperfluousZero cs then none else natural? 10 cs

def integer? (cs : List Char) : Option Int :=
  match cs with
  | '-' :: rest => (unsigned? rest).map fun n => -(n : Int)
  | '+' :: rest => (unsigned? rest).map fun n => (n : Int)
  | _ => (unsigned? cs).map fun n => (n : Int)

/-- Whether an integer belongs to those of 64 bits, with or without sign. -/
def isWord (i : Int) : Bool :=
  -(Number.twoTo 63 : Int) ≤ i && i < Number.twoTo 64

/-- Whether an integer belongs to those of 128 bits, with or without sign. -/
def isDoubleWord (i : Int) : Bool :=
  -(Number.twoTo 127 : Int) ≤ i && i < Number.twoTo 128

/-- The exponent after the letter of a decimal number. -/
def exponent? (cs : List Char) : Option Int :=
  match cs with
  | '-' :: rest => (natural? 10 rest).map fun n => -(n : Int)
  | '+' :: rest => (natural? 10 rest).map fun n => (n : Int)
  | _ => (natural? 10 cs).map fun n => (n : Int)

/-- Digits, point and exponent of a decimal number: the digits before and after the point and the
exponent. -/
def decimalParts? (cs : List Char) : Option (List Char × List Char × Int) :=
  let before := cs.takeWhile Char.isDigit
  let rest := cs.dropWhile Char.isDigit
  let (after, rest) :=
    match rest with
    | '.' :: r => (r.takeWhile Char.isDigit, r.dropWhile Char.isDigit)
    | _ => ([], rest)
  if before.isEmpty && after.isEmpty then none
  else
    match rest with
    | [] => some (before, after, 0)
    | 'e' :: r => (exponent? r).map fun e => (before, after, e)
    | 'E' :: r => (exponent? r).map fun e => (before, after, e)
    | _ => none

/-- The finite number that a decimal text without sign stands for. -/
def decimal? (negative : Bool) (cs : List Char) : Option Double :=
  match decimalParts? cs with
  | none => none
  | some (before, after, e) =>
    let m := ((natural? 10 (before ++ after)).getD 0)
    let x := Double.ofDecimal negative m (e - after.length)
    if x.isFinite then some x else none

/-- The number that a text with a point, an exponent or too many digits stands for. The names of the
numbers that are not finite stand for null. -/
def real? (cs : List Char) : Option Tree :=
  let names (stem : String) : List (List Char) :=
    [stem.toList ++ ".inf".toList, stem.toList ++ ".Inf".toList, stem.toList ++ ".INF".toList]
  if (names "" ++ names "+" ++ names "-").contains cs then some .null
  else if [".nan", ".NaN", ".NAN"].any fun s => s.toList == cs then some .null
  else
    let value :=
      match cs with
      | '-' :: rest => decimal? true rest
      | '+' :: rest => decimal? false rest
      | _ => decimal? false cs
    value.map fun x => .number (.decimal x)

/-- The value of a plain scalar; none for an integer that is too large for 64 bits but not for
128. -/
def ofText (cs : List Char) : Option Tree :=
  if cs.isEmpty || isNull cs then some .null
  else
    match bool? cs with
    | some b => some (.bool b)
    | none =>
      match (integer? cs).filter isDoubleWord with
      | some i => if isWord i then some (.number (.integer i)) else none
      | none =>
        let text := Tree.text (String.ofList cs)
        if hasSuperfluousZero cs then some text else some ((real? cs).getD text)

end Plain
end Yaml
end Provision
