import ScriptTypings.CommandLine.Choice
import ScriptTypings.Text.Classes
import ScriptTypings.Text.Quoted

/-!
# Arguments as words

Each argument of the command line is taken for a `Word`: a choice, maybe with a text attached to it,
a plain text, or something with a dash that is no choice. Behind the marker of two dashes every
argument is a plain text.
-/

namespace ScriptTypings.CommandLine

open Text

inductive UsageError
  | ambiguous (argument : String) (spellings : List String)
  | uselessText (choice : Choice) (text : String)
  | missingValue (choice : Choice)
  | missingChoices (choices : List Choice)
  | unrecognized (arguments : List String)
  deriving DecidableEq, Repr

namespace UsageError

def message : UsageError → String
  | ambiguous argument spellings =>
    "ambiguous option: " ++ argument ++ " could match " ++ join ", " spellings
  | uselessText choice text =>
    "argument " ++ choice.name ++ ": ignored explicit argument " ++ quote text
  | missingValue choice => "argument " ++ choice.name ++ ": expected one argument"
  | missingChoices choices =>
    "the following arguments are required: " ++ join ", " (choices.map Choice.name)
  | unrecognized arguments => "unrecognized arguments: " ++ join " " arguments

end UsageError

/-- An argument as it is understood. The text of a choice stands in the same argument: behind an
equals sign, or directly behind the letter of a short spelling. -/
inductive Word
  | plain (text : String)
  | marker
  | unknown (text : String)
  | choice (choice : Choice) (isShort : Bool) (text? : Option (List Char))
  deriving DecidableEq, Repr

namespace Word

/-- Whether a text behind a dash reads as a number, a line feed at its end left aside. -/
def isNumeral (s : List Char) : Bool :=
  let digits := if s.getLast? = some '\n' then s.dropLast else s
  match digits.dropWhile isDecimal with
  | [] => !digits.isEmpty
  | '.' :: fraction => !fraction.isEmpty && fraction.all isDecimal
  | _ => false

/-- A text before its first equals sign, and the text behind it. -/
def splitEquated (argument : String) : String × Option (List Char) :=
  match splitAt? ['='] argument.toList with
  | some (front, text) => (.ofList front, some text)
  | none => (argument, none)

/-- A choice in the given spelling. -/
def ofSpelled (spelling : String) (found : Choice) (text? : Option (List Char)) : Word :=
  .choice found (spelling.length = 2) text?

/-- The choices that an argument may stand for, with their spellings. -/
def candidates (argument : String) : List (String × Word) :=
  match argument.toList with
  | '-' :: '-' :: _ =>
    let (front, text?) := splitEquated argument
    (Choice.beginningWith front).map fun (spelling, found) =>
      (spelling, ofSpelled spelling found text?)
  | '-' :: letter :: rest =>
    let short := String.ofList ['-', letter]
    ((Choice.ofSpelling? short).map fun found => (short, ofSpelled short found (some rest))).toList
  | _ => []

/-- What an argument with a dash that is no choice is taken for. -/
def ofStray (argument : String) : Word :=
  if isNumeral (argument.toList.drop 1) || argument.toList.contains ' ' then .plain argument
  else .unknown argument

/-- An argument that is not spelled out as a choice. -/
def ofAbbreviation (argument : String) : Except UsageError Word :=
  match candidates argument with
  | [] => .ok (.ofStray argument)
  | [(_, word)] => .ok word
  | several => .error (.ambiguous argument (several.map Prod.fst))

/-- What an argument other than the marker is taken for. -/
def ofArgument (argument : String) : Except UsageError Word :=
  match argument.toList with
  | '-' :: _ :: _ =>
    match Choice.ofSpelling? argument with
    | some found => .ok (ofSpelled argument found none)
    | none =>
      let (front, text?) := splitEquated argument
      match Choice.ofSpelling? front with
      | some found => .ok (ofSpelled front found text?)
      | none => ofAbbreviation argument
  | _ => .ok (.plain argument)

/-- All arguments as words. -/
def ofArguments : List String → Except UsageError (List Word)
  | [] => .ok []
  | argument :: rest =>
    if argument = "--" then .ok (.marker :: rest.map .plain)
    else do return (← ofArgument argument) :: (← ofArguments rest)

end Word

end ScriptTypings.CommandLine
