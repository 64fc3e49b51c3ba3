import Provision.Text.Hidden

/-!
# Quoted text in messages

Input:
* a text to show inside a message.

Algorithm:
* the text stands between double quotes; a double quote and a backslash are preceded by a
  backslash, tab, line feed, carriage return and the null character have letters of their own, and a
  hidden character is written by its code point in hexadecimal.

Results:
* `quoted s` is the written form.
-/

namespace Provision
namespace Text

/-- The hexadecimal digits of a number, in lower case and without leading zeros. -/
def hexDigits (n : Nat) : String :=
  String.ofList (Nat.toDigits 16 n)

/-- The written form of one character of a quoted text. -/
def escape (c : Char) : String :=
  if c = '"' then "\\\""
  else if c = '\\' then "\\\\"
  else if c = '\t' then "\\t"
  else if c = '\n' then "\\n"
  else if c = '\r' then "\\r"
  else if c.toNat = 0 then "\\0"
  else if isHidden c then "\\u\x7b" ++ hexDigits c.toNat ++ "\x7d"
  else String.singleton c

/-- A text as it is shown inside a message. -/
def quoted (s : String) : String :=
  "\"" ++ String.join (s.toList.map escape) ++ "\""

end Text
end Provision
