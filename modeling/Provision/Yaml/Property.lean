import Provision.Yaml.Token

/-!
# Anchors, tags and directives of YAML

Input:
* a cursor at the mark of an anchor, an alias, a tag or a directive.

Algorithm:
* a name is a run of letters, digits, `_` and `-`;
* a tag is written in angle brackets, or as a handle between exclamation marks and a suffix, or as
  an exclamation mark and a suffix; octets of a tag may be written in hexadecimal after `%`;
* a directive is `%YAML` with a version or `%TAG` with a handle and the text it stands for.

Results:
* `scanName`, `scanTag` and `scanDirective` give the token and the cursor after it.
-/

namespace Provision
namespace Yaml

/-- Whether the name of an anchor may end before this character. -/
def endsName : List Char → Bool
  | [] => true
  | x :: _ =>
    isGap x || x = '?' || x = ':' || x = ',' || x = ']' || x = '}' || x = '%' || x = '@' || x = '`'

/-- Scans an anchor or an alias from its mark on. -/
def scanName (kind : List Char → TokenKind) (c : Cursor) : Scan (Token × Cursor) :=
  let (name, after) := c.skip.takeWhile isNameChar
  if name.isEmpty || !endsName after.rest then .error after.mark
  else .ok (⟨kind name, c.mark, after.mark⟩, after)

/-- Whether a character may stand in a tag as itself. -/
def isTagChar (verbatim : Bool) (x : Char) : Bool :=
  isNameChar x || ";/?:@&=+$.!~*'()".toList.contains x ||
    (verbatim && (x = ',' || x = '[' || x = ']'))

/-- How many octets a character has whose first octet is given; zero for no first octet. -/
def octetCount (octet : Nat) : Nat :=
  if octet < 0x80 then 1
  else if octet / 0x20 = 6 then 2
  else if octet / 0x10 = 14 then 3
  else if octet / 0x08 = 30 then 4
  else 0

/-- The octet written in hexadecimal after `%`. -/
def octet? : List Char → Option Nat
  | '%' :: a :: b :: _ =>
    match hexValue? a, hexValue? b with
    | some a, some b => some (a * 16 + b)
    | _, _ => none
  | _ => none

/-- Scans the remaining octets of a character. -/
def scanOctets : Nat → List Char → Cursor → Scan (List Char × Cursor)
  | 0, text, c => .ok (text, c)
  | n + 1, text, c =>
    match octet? c.rest with
    | some o =>
      if o / 0x40 = 2 then scanOctets n (text ++ [Char.ofNat o]) (c.skipN 3) else .error c.mark
    | none => .error c.mark

/-- Scans a character that is written in hexadecimal octets. -/
def scanEscapedOctets (c : Cursor) : Scan (List Char × Cursor) :=
  match octet? c.rest with
  | none => .error c.mark
  | some o =>
    match octetCount o with
    | 0 => .error c.mark
    | n + 1 => scanOctets n [Char.ofNat o] (c.skipN 3)

/-- Scans the characters of a tag in at most `fuel` steps. -/
def scanTagChars (verbatim : Bool) : Nat → List Char → Cursor → Scan (List Char × Cursor)
  | 0, text, c => .ok (text, c)
  | fuel + 1, text, c =>
    match c.rest with
    | [] => .ok (text, c)
    | x :: _ =>
      if x = '%' then
        match scanEscapedOctets c with
        | .error m => .error m
        | .ok (octets, after) => scanTagChars verbatim fuel (text ++ octets) after
      else if isTagChar verbatim x then scanTagChars verbatim fuel (text ++ [x]) c.skip
      else .ok (text, c)

/-- Scans the text of a tag after `head`, of which only the exclamation mark is dropped; a tag
without any character is a fault. -/
def scanTagText (verbatim : Bool) (head : List Char) (c : Cursor) : Scan (List Char × Cursor) :=
  match scanTagChars verbatim (c.rest.length + 1) (head.drop 1) c with
  | .error m => .error m
  | .ok (text, after) =>
    if head.isEmpty && text.isEmpty then .error after.mark else .ok (text, after)

/-- Scans the handle of a tag; that of a directive must end with an exclamation mark. -/
def scanHandle (inDirective : Bool) (c : Cursor) : Scan (List Char × Cursor) :=
  if !c.sees '!' then .error c.mark
  else
    let (name, after) := c.skip.takeWhile isNameChar
    if after.sees '!' then .ok ('!' :: name ++ ['!'], after.skip)
    else if inDirective && !name.isEmpty then .error after.mark
    else .ok ('!' :: name, after)

/-- Scans the handle and the suffix of a tag. -/
def scanTagParts (c : Cursor) : Scan (List Char × List Char × Cursor) :=
  if c.skip.sees '<' then
    match scanTagText true [] (c.skipN 2) with
    | .error m => .error m
    | .ok (suffix, after) =>
      if after.sees '>' then .ok ([], suffix, after.skip) else .error after.mark
  else
    match scanHandle false c with
    | .error m => .error m
    | .ok (handle, after) =>
      if 1 < handle.length && handle.getLast? == some '!' then
        match scanTagText false [] after with
        | .error m => .error m
        | .ok (suffix, after) => .ok (handle, suffix, after)
      else
        match scanTagText false handle after with
        | .error m => .error m
        | .ok ([], after) => .ok ([], ['!'], after)
        | .ok (suffix, after) => .ok (['!'], suffix, after)

/-- Scans a tag from its exclamation mark on. -/
def scanTag (inFlow : Bool) (c : Cursor) : Scan (Token × Cursor) :=
  match scanTagParts c with
  | .error m => .error m
  | .ok (handle, suffix, after) =>
    if (inFlow && after.sees ',') || after.atGap then
      .ok (⟨.tag handle suffix, c.mark, after.mark⟩, after)
    else .error after.mark

/-- Scans a number of a version, of at most nine digits. -/
def scanVersionNumber (c : Cursor) : Scan (Nat × Cursor) :=
  let (digits, after) := c.takeWhile Char.isDigit
  if digits.isEmpty then .error c.mark
  else if 9 < digits.length then .error (c.skipN 9).mark
  else .ok (digits.foldl (fun n d => n * 10 + (d.toNat - '0'.toNat)) 0, after)

/-- Scans the version of a `%YAML` directive. -/
def scanVersion (c : Cursor) : Scan (TokenKind × Cursor) :=
  match scanVersionNumber (c.skipWhile isBlank) with
  | .error m => .error m
  | .ok (major, c) =>
    if !c.sees '.' then .error c.mark
    else
      match scanVersionNumber c.skip with
      | .error m => .error m
      | .ok (minor, c) => .ok (.versionDirective major minor, c)

/-- Scans the handle of a `%TAG` directive and the text it stands for. -/
def scanTagDirective (c : Cursor) : Scan (TokenKind × Cursor) :=
  match scanHandle true (c.skipWhile isBlank) with
  | .error m => .error m
  | .ok (handle, c) =>
    if !c.peek?.any isBlank then .error c.mark
    else
      match scanTagText true [] (c.skipWhile isBlank) with
      | .error m => .error m
      | .ok (stem, c) => if c.atGap then .ok (.tagDirective handle stem, c) else .error c.mark

/-- Scans the name of a directive and what it says. -/
def scanDirectiveParts (c : Cursor) : Scan (TokenKind × Cursor) :=
  let (name, after) := c.takeWhile isNameChar
  if name.isEmpty || !after.atGap then .error after.mark
  else if name = ['Y', 'A', 'M', 'L'] then scanVersion after
  else if name = ['T', 'A', 'G'] then scanTagDirective after
  else .error after.mark

/-- Scans a directive from its mark to the end of its line. -/
def scanDirective (c : Cursor) : Scan (Token × Cursor) :=
  match scanDirectiveParts c.skip with
  | .error m => .error m
  | .ok (kind, after) =>
    let rest := (after.skipWhile isBlank).skipComment
    if rest.atBreak then .ok (⟨kind, c.mark, after.mark⟩, rest.skipBreak) else .error rest.mark

end Yaml
end Provision
