import ScriptTypings.Text.Search

/-!
# Paths

A path is a list of names, behind slashes if it begins at the root. Empty names and single dots are
left out, so that equal paths have equal parts; paths are ordered by their names, one after the
other.
-/

namespace ScriptTypings

structure Path where
  /-- The slashes in front: none, one or two. -/
  slashes : Nat := 0
  parts : List String
  deriving DecidableEq, Repr

namespace Path

/-- How many slashes in front of a text count: exactly two are kept, and more count as one. -/
def slashesBefore (s : List Char) : Nat :=
  let count := (s.takeWhile (· = '/')).length
  if count ≤ 2 then count else 1

def ofText (text : String) : Path :=
  { slashes := slashesBefore text.toList
    parts := ((Text.splitOnChar '/' text.toList).map String.ofList).filter fun part =>
      part ≠ "" && part ≠ "." }

def text (path : Path) : String :=
  match path.slashes, path.parts with
  | 0, [] => "."
  | count, parts => .ofList (List.replicate count '/') ++ Text.join "/" parts

/-- The path of a file in a folder. -/
def file (folder : Path) (name : String) : Path :=
  { folder with parts := folder.parts ++ [name] }

/-- Whether a name holds the null character, which ends a name for the file system. -/
def hasNull (path : Path) : Bool :=
  path.parts.any fun part => part.toList.contains '\x00'

def parent (path : Path) : Path :=
  { path with parts := path.parts.dropLast }

/-- Whether a list of names comes before another, or is the same. -/
def precedes : List String → List String → Bool
  | [], _ => true
  | _ :: _, [] => false
  | a :: as, b :: bs => if a = b then precedes as bs else decide (a ≤ b)

/-- The extension of a file name from its last dot on; a dot at either end begins none. -/
def extension (name : String) : List Char :=
  let after := Text.afterLast '.' name.toList
  if after.isEmpty || name.length ≤ after.length + 1 then [] else '.' :: after

end Path

end ScriptTypings
