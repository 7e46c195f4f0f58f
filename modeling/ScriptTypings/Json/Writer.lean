import ScriptTypings.Json.Basic
import ScriptTypings.Number.Shortest
import ScriptTypings.Text.Quoted

/-!
# Writing JSON

A `Layout` says how far the members of a container are indented, or that all stands on one line.
Empty containers have nothing between their brackets.
-/

namespace ScriptTypings.Json

open Text Number

/-- The indentation of each level; with none, a value is written on one line. -/
structure Layout where
  indent : Option Nat := none

def escapeUnit (unit : Nat) : List Char :=
  '\\' :: 'u' :: hex 4 unit

/-- One or two code units as escapes. -/
def escapeUnits (c : Char) : List Char :=
  if c.toNat < 0x10000 then escapeUnit c.toNat
  else
    let n := c.toNat - 0x10000
    escapeUnit (0xD800 + n / 0x400) ++ escapeUnit (0xDC00 + n % 0x400)

/-- A character inside quotes: quotes, backslashes and controls are escaped. -/
def escapeChar (c : Char) : List Char :=
  if c = '"' then ['\\', '"']
  else if c = '\\' then ['\\', '\\']
  else if c = '\n' then ['\\', 'n']
  else if c = '\r' then ['\\', 'r']
  else if c = '\t' then ['\\', 't']
  else if c = '\x08' then ['\\', 'b']
  else if c = '\x0c' then ['\\', 'f']
  else if c.toNat < 32 then escapeUnit c.toNat
  else [c]

/-- A character inside quotes in pure ASCII. -/
def escapeCharAscii (c : Char) : List Char :=
  if c.toNat < 127 then escapeChar c else escapeUnits c

def quoteText (s : String) : List Char :=
  '"' :: (s.toList.flatMap escapeChar ++ ['"'])

/-- A text between double quotes, written in ASCII only. -/
def quoteAscii (s : String) : String :=
  .ofList ('"' :: (s.toList.flatMap escapeCharAscii ++ ['"']))

/-- What stands behind an opening bracket, or before a closing one, at the given depth. -/
def Layout.gap (layout : Layout) (depth : Nat) : List Char :=
  match layout.indent with
  | none => []
  | some width => '\n' :: List.replicate (width * depth) ' '

/-- What stands between two members. -/
def Layout.separator (layout : Layout) (depth : Nat) : List Char :=
  match layout.indent with
  | none => [',', ' ']
  | some _ => ',' :: layout.gap depth

mutual

def writeChars (layout : Layout) (depth : Nat) : Json → List Char
  | null => ['n', 'u', 'l', 'l']
  | bool true => ['t', 'r', 'u', 'e']
  | bool false => ['f', 'a', 'l', 's', 'e']
  | whole n => (toString n).toList
  | real x => (x.text "Infinity" "NaN").toList
  | text s => quoteText s
  | list [] => ['[', ']']
  | list (item :: items) =>
    '[' :: layout.gap (depth + 1) ++ writeChars layout (depth + 1) item ++
      (writeItems layout (depth + 1) items ++ (layout.gap depth ++ [']']))
  | object [] => ['\x7b', '\x7d']
  | object ((name, value) :: members) =>
    '\x7b' :: layout.gap (depth + 1) ++ quoteText name ++
      (':' :: ' ' :: writeChars layout (depth + 1) value) ++
      (writeMembers layout (depth + 1) members ++ (layout.gap depth ++ ['\x7d']))

/-- The items behind the first, each with the separator before it. -/
def writeItems (layout : Layout) (depth : Nat) : List Json → List Char
  | [] => []
  | item :: items =>
    layout.separator depth ++ writeChars layout depth item ++ writeItems layout depth items

/-- The members behind the first, each with the separator before it. -/
def writeMembers (layout : Layout) (depth : Nat) : List (String × Json) → List Char
  | [] => []
  | (name, value) :: members =>
    layout.separator depth ++ quoteText name ++ (':' :: ' ' :: writeChars layout depth value) ++
      writeMembers layout depth members

end

/-- The text of a value. -/
def write (layout : Layout) (value : Json) : String :=
  .ofList (writeChars layout 0 value)

/-- The text of a value on one line. -/
def writeLine (value : Json) : String :=
  write ⟨none⟩ value

end ScriptTypings.Json
