import Provision.Template.Variables
import Provision.Sorted
import Provision.Text.Blank

/-!
# Placeholders

Input:
* the characters of a template and the variables it is rendered against.

Algorithm:
* a placeholder is a name between three braces or between two, the two opening ones optionally
  followed by an ampersand, with blanks around the name;
* a template is cut, from left to right, into placeholders and single characters; where both forms
  could start the one with three braces counts.

Results:
* `render` writes the value of each placeholder that has one and leaves the others as they are;
* `unresolved` lists the names of the others;
* a placeholder takes at least one character (`placeholder?_shorter`).
-/

namespace Provision
namespace Template

/-- Whether a name may start with a character. -/
def isNameStart (c : Char) : Bool :=
  c.isAlphanum || c = '_'

/-- Whether a name may go on with a character. -/
def isNamePart (c : Char) : Bool :=
  isNameStart c || c = ':' || c = '.' || c = '-'

/-- The longest name in front of the characters, and what follows it. -/
def name? (cs : List Char) : Option (List Char × List Char) :=
  match cs with
  | [] => none
  | c :: rest =>
    if isNameStart c then some (c :: rest.takeWhile isNamePart, rest.dropWhile isNamePart)
    else none

/-- The characters without an ampersand in front. -/
def dropAmpersand : List Char → List Char
  | '&' :: cs => cs
  | cs => cs

/-- A name with blanks around it in front of a closing mark, and what follows the mark. -/
def enclosed? (closing cs : List Char) : Option (List Char × List Char) :=
  match name? (Text.dropBlanks cs) with
  | none => none
  | some (name, rest) =>
    match Text.afterStart? closing (Text.dropBlanks rest) with
    | none => none
    | some rest => some (name, rest)

/-- The name between three braces in front of the characters, and what follows. -/
def triple? : List Char → Option (List Char × List Char)
  | '{' :: '{' :: '{' :: cs => enclosed? ['}', '}', '}'] cs
  | _ => none

/-- The name between two braces in front of the characters, and what follows. -/
def double? : List Char → Option (List Char × List Char)
  | '{' :: '{' :: cs => enclosed? ['}', '}'] (dropAmpersand cs)
  | _ => none

/-- The name of the placeholder in front of the characters, and what follows it. -/
def placeholder? (cs : List Char) : Option (List Char × List Char) :=
  match triple? cs with
  | some found => some found
  | none => double? cs

theorem length_dropBlanks_le
    (cs : List Char) :
    (Text.dropBlanks cs).length ≤ cs.length :=
  (List.dropWhile_sublist _).length_le

theorem name?_length_le
    {cs name rest : List Char}
    (h : name? cs = some (name, rest)) :
    rest.length ≤ cs.length := by
  cases cs with
  | nil => simp [name?] at h
  | cons c cs =>
      simp only [name?] at h
      split at h
      · cases h
        exact Nat.le_succ_of_le (List.dropWhile_sublist _).length_le
      · cases h

theorem length_of_afterStart?
    {closing cs rest : List Char}
    (h : Text.afterStart? closing cs = some rest) :
    rest.length ≤ cs.length := by
  rw [Text.afterStart?_eq_some_iff.mp h, List.length_append]
  omega

theorem enclosed?_length_le
    {closing cs name rest : List Char}
    (h : enclosed? closing cs = some (name, rest)) :
    rest.length ≤ cs.length := by
  simp only [enclosed?] at h
  split at h
  · cases h
  · rename_i n r hn
    split at h
    · cases h
    · rename_i r' hr
      cases h
      exact Nat.le_trans (length_of_afterStart? hr)
        (Nat.le_trans (length_dropBlanks_le r)
          (Nat.le_trans (name?_length_le hn) (length_dropBlanks_le cs)))

theorem length_dropAmpersand_le
    (cs : List Char) :
    (dropAmpersand cs).length ≤ cs.length := by
  unfold dropAmpersand
  split <;> simp

theorem triple?_shorter
    {cs name rest : List Char}
    (h : triple? cs = some (name, rest)) :
    rest.length < cs.length := by
  unfold triple? at h
  split at h
  · have hle := enclosed?_length_le h
    simp only [List.length_cons]
    omega
  · cases h

theorem double?_shorter
    {cs name rest : List Char}
    (h : double? cs = some (name, rest)) :
    rest.length < cs.length := by
  unfold double? at h
  split at h
  · rename_i cs'
    have hle := enclosed?_length_le h
    have hamp := length_dropAmpersand_le cs'
    simp only [List.length_cons]
    omega
  · cases h

/-- A placeholder takes at least one character. -/
theorem placeholder?_shorter
    {cs name rest : List Char}
    (h : placeholder? cs = some (name, rest)) :
    rest.length < cs.length := by
  simp only [placeholder?] at h
  split at h
  · rename_i found htriple
    cases h
    exact triple?_shorter htriple
  · exact double?_shorter h

inductive Piece where
  | plain (c : Char)
  /-- A placeholder as it is written, and the name in it. -/
  | hole (written name : List Char)
  deriving DecidableEq, Inhabited

/-- The parts of a template, from left to right. -/
def pieces (cs : List Char) : List Piece :=
  match cs with
  | [] => []
  | c :: rest =>
    match _hfound : placeholder? (c :: rest) with
    | some (name, after) =>
      .hole ((c :: rest).take ((c :: rest).length - after.length)) name :: pieces after
    | none => .plain c :: pieces rest
termination_by cs.length
decreasing_by
  · exact placeholder?_shorter ‹_›
  · simp

/-- The characters that a part is rendered to. -/
def Piece.render (vars : Variables) : Piece → List Char
  | .plain c => [c]
  | .hole written name =>
    match vars.lookup? name with
    | some t => (Variables.valueText t).toList
    | none => written

/-- The name of a placeholder that has no value. -/
def Piece.unresolved? (vars : Variables) : Piece → Option String
  | .plain _ => none
  | .hole _ name => if (vars.lookup? name).isSome then none else some (String.ofList name)

/-- A template with the values of its placeholders. -/
def render (content : String) (vars : Variables) : String :=
  String.ofList ((pieces content.toList).flatMap (Piece.render vars))

/-- The names that have no value, in increasing order. -/
def unresolved (content : String) (vars : Variables) : List String :=
  Sorted.texts ((pieces content.toList).filterMap (Piece.unresolved? vars))

end Template
end Provision
