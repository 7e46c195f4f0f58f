import ScriptTypings.Text.Classes
import ScriptTypings.Text.Search

/-!
# Event syntax

The script sample of an event registers a listener, `x.addEventListener("name", f)`, and sets a
handler, `x.onname = f`.
-/

namespace ScriptTypings.EventSyntax

open Text

/-- Whether a test holds for the text behind some word character. -/
def someAfterWord (test : List Char → Bool) : List Char → Bool
  | [] => false
  | c :: rest => (isWord c && test rest) || someAfterWord test rest

/-- The text behind a word of at least one character. -/
def afterWord? (s : List Char) : Option (List Char) :=
  if (s.takeWhile isWord).isEmpty then none else some (s.dropWhile isWord)

/-- The text behind a character, white space before it aside. -/
def afterMark? (mark : Char) (s : List Char) : Option (List Char) :=
  dropLead? [mark] (trimStart s)

def beginsRegistration (s : List Char) : Bool :=
  Option.isSome <| do
    let s ← dropLead? ".addEventListener(".toList s
    let s ← afterMark? '\x22' s
    let s ← afterWord? s
    let s ← dropLead? ['\x22'] s
    let s ← afterMark? ',' s
    let s ← afterWord? (trimStart s)
    afterMark? ')' s

def beginsAssignment (s : List Char) : Bool :=
  Option.isSome <| do
    let s ← dropLead? ".on".toList s
    let s ← afterWord? s
    afterMark? '=' s

/-- Whether a sample shows both ways to listen to an event. -/
def isComplete (code : String) : Bool :=
  someAfterWord beginsRegistration code.toList && someAfterWord beginsAssignment code.toList

end ScriptTypings.EventSyntax
