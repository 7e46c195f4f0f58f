import ScriptTypings.Json.Writer
import ScriptTypings.Text.Classes
import ScriptTypings.Text.LowerCase
import ScriptTypings.Text.Search

/-!
# Names in declarations

Parameter names lose their output mark and keep clear of reserved words. A member name that is no
plain identifier is quoted. An event's name is its member's name without the leading `on`.
-/

namespace ScriptTypings.Declarations

open Text

/-- The mark of an output parameter. -/
def outMark : List Char := "[out]".toList

/-- The name in front of an output mark at its end, in any casing; none without a mark. -/
def unmarked? (name : List Char) : Option (List Char) :=
  let body := trimEnd name
  let front := body.take (body.length - outMark.length)
  if (body.drop front.length).map Char.toLower = outMark then some (trimEnd front) else none

def isOutput (name : String) : Bool :=
  (unmarked? name.toList).isSome

/-- The name without its output mark. -/
def withoutMark (name : String) : String :=
  match unmarked? name.toList with
  | some front => .ofList front
  | none => name

def reservedWords : List String :=
  ["break", "case", "catch", "class", "const", "continue", "debugger", "default", "delete", "do",
    "else", "enum", "export", "extends", "false", "finally", "for", "function", "if", "implements",
    "import", "in", "instanceof", "interface", "let", "new", "null", "package", "private",
    "protected", "public", "return", "static", "super", "switch", "this", "throw", "true", "try",
    "typeof", "var", "void", "while", "with", "yield"]

def parameterName (name : String) : String :=
  let plain := withoutMark name
  if reservedWords.contains plain then plain ++ "_" else plain

def beginsIdentifier (c : Char) : Bool :=
  isAsciiLetter c || c = '_' || c = '$'

def continuesIdentifier (c : Char) : Bool :=
  isWord c || c = '$'

/-- Whether a name stands unquoted. A line feed at its end is not looked at. -/
def isPlainName (name : List Char) : Bool :=
  match name with
  | [] => false
  | c :: rest =>
    beginsIdentifier c &&
      (rest.all continuesIdentifier ||
        (rest.getLast? = some '\n' && rest.dropLast.all continuesIdentifier))

def memberName (name : String) : String :=
  if isPlainName name.toList then name else Json.quoteAscii name

/-- The name of the event whose handler a member holds; none if the member's name does not begin
with `on`. -/
def eventName? (member : String) : Option String :=
  (dropLead? ['o', 'n'] member.toList).map String.ofList

def eventName (member : String) : String :=
  (eventName? member).getD member

/-- What is wrong with the name of a member that holds a handler. -/
def eventWarning? (member : String) : Option String :=
  if (eventName? member).isSome then none
  else some ("Event member " ++ member ++ " has no " ++ quote "on" ++ " prefix")

end ScriptTypings.Declarations
