import ScriptTypings.Text.Classes
import ScriptTypings.Text.LowerCase
import ScriptTypings.Text.Percent
import ScriptTypings.Text.Search

/-!
# Identifiers

An identifier is a dotted name such as `Windows.Foundation.Uri.Host`. Pages and links write it with
decorations: a leading kind letter, generic ticks, the parentheses of a call. `canonical` and
`ofLink` remove them. Identifiers are compared by their lower-case form.
-/

namespace ScriptTypings.Identifier

open Text

/-- The mark before the number of type parameters. -/
def tick : Char := '\x60'

/-- Removes ticks that digits follow, together with the digits. The numbers count the ticks that
wait for a digit, and the flag tells that digits are being removed. -/
def dropTicks : Nat → Bool → List Char → List Char
  | ticks, _, [] => List.replicate ticks tick
  | ticks, removing, c :: rest =>
    if c = tick then dropTicks (ticks + 1) false rest
    else if isDecimal c && (removing || 0 < ticks) then dropTicks 0 true rest
    else List.replicate ticks tick ++ c :: dropTicks 0 false rest

/-- The name without call parentheses and generic ticks. -/
def canonicalChars (s : List Char) : List Char :=
  trim (dropTicks 0 false (upTo ['('] s))

def canonical (s : String) : String :=
  .ofList (canonicalChars s.toList)

/-- Removes the capital letter and colon that tell the kind of a documented item. -/
def dropKind : List Char → List Char
  | letter :: ':' :: rest => if 'A' ≤ letter && letter ≤ 'Z' then rest else letter :: ':' :: rest
  | s => s

def pageExtensions : List String := [".aspx", ".html", ".htm"]

/-- Removes the extension of a page name, in any casing. -/
def dropExtension (s : List Char) : List Char :=
  match pageExtensions.find? fun e => endsWith (lower s) e.toList with
  | some e => s.take (s.length - e.toList.length)
  | none => s

/-- The identifier that a link target names: what follows `Id=`, or else the page name. -/
def ofLinkChars (target : List Char) : List Char :=
  let target := percentDecode target
  let name :=
    match splitAt? "Id=".toList target with
    | some (_, id) => id
    | none => dropExtension (afterLast '/' target)
  canonicalChars (dropKind name)

def ofLink (target : String) : String :=
  .ofList (ofLinkChars target.toList)

/-- The part behind the last dot. -/
def lastSegment (id : String) : String :=
  .ofList (afterLast '.' id.toList)

/-- The name in camel case: its first letter in lower case. -/
def camelCase (name : String) : String :=
  match name.toList with
  | [] => ""
  | c :: rest => .ofList (lower [c] ++ rest)

/-- The identifier of a member. -/
def member (owner name : String) : String :=
  owner ++ "." ++ name

/-- The identifier with its last segment changed; none if it has no dot. -/
def mapLast? (f : List Char → List Char) (id : String) : Option String :=
  let last := afterLast '.' id.toList
  if last.length = id.toList.length then none
  else some (.ofList (id.toList.take (id.toList.length - last.length) ++ f last))

end ScriptTypings.Identifier
