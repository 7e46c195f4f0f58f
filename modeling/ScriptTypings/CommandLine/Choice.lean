import ScriptTypings.Text.Search

/-!
# Choices on the command line

Every `Choice` has spellings: long ones with two dashes, and for most of them a short one with a
dash and a letter. Some choices need a value. An argument that begins a long spelling stands for it
if it begins no other.
-/

namespace ScriptTypings.CommandLine

open Text

inductive Choice
  | help
  | reflection
  | output
  | dump
  | rebuild
  | documents
  | cache
  | supplies
  | strict
  | verbose
  deriving DecidableEq, Repr

namespace Choice

def all : List Choice :=
  [help, reflection, output, dump, rebuild, documents, cache, supplies, strict, verbose]

def spellings : Choice → List String
  | help => ["-h", "--help"]
  | reflection => ["--iteration", "-i"]
  | output => ["--output", "-o"]
  | dump => ["--debug", "-d"]
  | rebuild => ["--force-reparse", "-f"]
  | documents => ["--docs"]
  | cache => ["--cache"]
  | supplies => ["--supplies"]
  | strict => ["--strict"]
  | verbose => ["--verbose", "-v"]

/-- The name of a choice in messages. -/
def name (choice : Choice) : String :=
  join "/" choice.spellings

def takesValue : Choice → Bool
  | reflection => true
  | output => true
  | dump => true
  | documents => true
  | cache => true
  | supplies => true
  | _ => false

def isRequired (choice : Choice) : Bool :=
  choice = reflection || choice = output

/-- The choice that is spelled in a certain way. -/
def ofSpelling? (spelling : String) : Option Choice :=
  all.find? fun choice => choice.spellings.contains spelling

/-- The spellings that begin with a text, and the choices that they stand for. -/
def beginningWith (front : String) : List (String × Choice) :=
  (all.flatMap fun choice => choice.spellings.map (·, choice)).filter fun entry =>
    (dropLead? front.toList entry.1.toList).isSome

end Choice

end ScriptTypings.CommandLine
