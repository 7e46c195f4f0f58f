/-!
# Finding, cutting and joining

`splitAt? needle s` cuts a text at the first occurrence of `needle`, which stands in neither part.
-/

namespace ScriptTypings.Text

/-- The rest of a text behind a given beginning. -/
def dropLead? : List Char → List Char → Option (List Char)
  | [], s => some s
  | _ :: _, [] => none
  | a :: lead, c :: s => if a = c then dropLead? lead s else none

/-- The parts before and after the first occurrence of the needle. -/
def splitAt? (needle : List Char) : List Char → Option (List Char × List Char)
  | [] => if needle.isEmpty then some ([], []) else none
  | c :: rest =>
    match dropLead? needle (c :: rest) with
    | some after => some ([], after)
    | none => (splitAt? needle rest).map fun (before, after) => (c :: before, after)

/-- The part before the first occurrence of the needle, or all of the text. -/
def upTo (needle s : List Char) : List Char :=
  match splitAt? needle s with
  | some (before, _) => before
  | none => s

/-- The parts between the occurrences of a character. -/
def splitOnChar (mark : Char) : List Char → List (List Char)
  | [] => [[]]
  | c :: rest =>
    if c = mark then [] :: splitOnChar mark rest
    else
      match splitOnChar mark rest with
      | part :: parts => (c :: part) :: parts
      | [] => [[c]]

/-- The part behind the last occurrence of a character, or all of the text. -/
def afterLast (mark : Char) (s : List Char) : List Char :=
  (s.reverse.takeWhile (· ≠ mark)).reverse

/-- Whether a text ends with another. -/
def endsWith (s tail : List Char) : Bool :=
  tail.isSuffixOf s

/-- Puts a separator between the parts. -/
def join (separator : String) : List String → String
  | [] => ""
  | [part] => part
  | part :: parts => part ++ separator ++ join separator parts

theorem length_of_dropLead? {lead s rest : List Char} (h : dropLead? lead s = some rest) :
    s.length = lead.length + rest.length := by
  induction lead generalizing s with
  | nil => simp_all [dropLead?]
  | cons a lead ih =>
    cases s with
    | nil => simp [dropLead?] at h
    | cons c s =>
      by_cases hc : a = c
      · have := ih (by simpa [dropLead?, hc] using h)
        simp [this]
        omega
      · simp [dropLead?, hc] at h

end ScriptTypings.Text
