import ScriptTypings.Text.Blank
import ScriptTypings.Text.CaseTable

/-!
# Lower case

`lower` is the full lower-case mapping: one character may become two, and a capital sigma becomes
the final form at the end of a word. Two identifiers are the same up to case when their lower-case
forms are equal.
-/

namespace ScriptTypings.Text

/-- The shift of the first run that holds the code point. -/
def lowerShift? (n : Nat) : List (Nat × Nat × Nat × Int) → Option Int
  | [] => none
  | (first, last, step, shift) :: runs =>
    if first ≤ n && n ≤ last && (n - first) % step = 0 then some shift else lowerShift? n runs

/-- The lower-case form of a character, its surroundings aside. -/
def lowerChar (c : Char) : Char :=
  if c.toNat < 128 then
    if 'A' ≤ c && c ≤ 'Z' then Char.ofNat (c.toNat + 32) else c
  else
    match lowerShift? c.toNat lowerRuns with
    | some shift => Char.ofNat (Int.toNat (c.toNat + shift))
    | none => c

/-- Whether the nearest character that is not ignorable has case. -/
def casedNearby : List Char → Bool
  | [] => false
  | c :: rest =>
    if inRanges caseIgnorableRanges c.toNat then casedNearby rest
    else inRanges casedRanges c.toNat

/-- Lower case of a text; the first argument holds the characters before it, nearest first. -/
def lowerFrom : List Char → List Char → List Char
  | _, [] => []
  | before, c :: rest =>
    let here :=
      if c = 'Σ' then
        if casedNearby before && !casedNearby rest then ['ς'] else ['σ']
      else if c = 'İ' then ['i', '\u0307']
      else [lowerChar c]
    here ++ lowerFrom (c :: before) rest

def lower (s : List Char) : List Char :=
  lowerFrom [] s

/-- `lower` on strings. -/
def lowered (s : String) : String :=
  .ofList (lower s.toList)

end ScriptTypings.Text
