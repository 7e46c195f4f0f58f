import ScriptTypings.Corpus.Basic
import ScriptTypings.Json.Display

/-!
# Checking a corpus

A function should have a signature, and the members and types that pages list should be documented.
What is missing is a warning; a missing interface member is an error where checking is strict.
-/

namespace ScriptTypings

inductive Finding
  | unsignedFunction (identifier : String)
  | undocumentedMember (identifier member : String)
  | undocumentedType (identifier type : String)
  deriving DecidableEq, Repr

namespace Finding

def message : Finding → String
  | unsignedFunction identifier => identifier ++ ": function without signatures"
  | undocumentedMember identifier member =>
    identifier ++ ": member " ++ member ++ " is not documented"
  | undocumentedType identifier type =>
    identifier ++ ": listed type " ++ type ++ " is not documented"

/-- Whether strict checking counts a finding as an error. -/
def isGrave : Finding → Bool
  | undocumentedMember _ _ => true
  | _ => false

end Finding

structure Validation where
  errors : List Finding
  warnings : List Finding
  deriving DecidableEq, Repr

namespace Corpus

/-- Whether the corpus has an entry for a listed value. -/
def documents (corpus : Corpus) (listed : Json) : Bool :=
  listed.isText && corpus.contains listed.asText

/-- What is missing for one entry. -/
def findingsOf (corpus : Corpus) (entry : Entry) : List Finding :=
  match entry.content with
  | .function [] => [.unsignedFunction entry.identifier.shown]
  | .interface listing =>
    (listing.members.filter fun id => !corpus.documents id).map fun id =>
      .undocumentedMember entry.identifier.shown id.shown
  | .space listing =>
    (listing.types.filter fun id => !corpus.documents id).map fun id =>
      .undocumentedType entry.identifier.shown id.shown
  | _ => []

def findings (corpus : Corpus) : List Finding :=
  corpus.items.flatMap fun item => corpus.findingsOf item.2

def validate (corpus : Corpus) (strict : Bool) : Validation :=
  { errors := corpus.findings.filter fun f => strict && f.isGrave,
    warnings := corpus.findings.filter fun f => !(strict && f.isGrave) }

end Corpus

end ScriptTypings
