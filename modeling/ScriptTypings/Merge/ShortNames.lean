import ScriptTypings.Corpus.Basic
import ScriptTypings.Identifier
import ScriptTypings.Json.Display
import ScriptTypings.Trace
import ScriptTypings.TypeExpr

/-!
# Short names

Pages refer to types by the last segments of their identifiers. The table of short names tells which
identifier a segment stands for: none if the segment belongs to two identifiers, unless an override
decides. A `Reference` qualifies types by this table.
-/

namespace ScriptTypings

open Text

/-- Identifiers by short name; a name whose identifier counts as empty is left as it is. An override
may be a value that is no text. -/
abbrev ShortNames := NameMap Json

namespace ShortNames

/-- Whether other types refer to an entry by its short name. -/
def isReferable (entry : Entry) : Bool :=
  match entry.content with
  | .cls _ _ => true
  | .delegate _ => true
  | .enumeration => true
  | .record _ => true
  | .interface _ => true
  | _ => false

/-- The entries that others refer to, in the order of their keys. -/
def referable (corpus : Corpus) : List Entry :=
  (corpus.items.map Prod.snd).filter isReferable

/-- Adds an identifier under its short name; a second one makes the name ambiguous. -/
def addIdentifier (table : ShortNames) (identifier : String) : ShortNames :=
  let short := lowered (Identifier.lastSegment identifier)
  match NameMap.find? short table with
  | none => NameMap.put short identifier table
  | some (.text other) =>
    if lowered other = lowered identifier then table else NameMap.put short .null table
  | some _ => table

/-- The table of a corpus; the overrides are set last. -/
def ofCorpus (corpus : Corpus) (overrides : List (String × Json)) : ShortNames :=
  let table := (referable corpus).foldl (fun t e => addIdentifier t e.identifier.asText) []
  NameMap.update table (overrides.map fun o => (lowered o.1, o.2))

/-- Why a corpus has no table of short names: an identifier is no text. -/
def misfit? (corpus : Corpus) : Option Misfit :=
  Trace.misfit? ((referable corpus).flatMap fun e => (Trace.use e.identifier : Trace Unit))

/-- What a name stands for; a dotted name stands for itself. -/
def expand (table : ShortNames) (name : String) : Json :=
  if name.toList.contains '.' then name
  else
    match NameMap.find? (lowered name) table with
    | some meaning => if meaning.isEmpty then name else meaning
    | none => name

/-- What a name stands for, as it stands inside of a type text. -/
def expandInside (table : ShortNames) (name : String) : String :=
  (table.expand name).shown

/-- What a type expression stands for if that is no text: this is so for bare names alone. -/
def oddMeaning? (table : ShortNames) : TypeExpr → Option Json
  | .named base [] => if (table.expand base).isText then none else some (table.expand base)
  | _ => none

/-- A type expression, written with every short name replaced by what it stands for. -/
def qualifyExpr (table : ShortNames) (type : TypeExpr) : Json :=
  match table.oddMeaning? type with
  | some meaning => meaning
  | none => .text (type.rename table.expandInside).print

/-- A type text with every short name replaced by what it stands for. -/
def qualify (table : ShortNames) (text : String) : Json :=
  table.qualifyExpr (.read text)

mutual

/-- Whether something that is no text would be put between other type arguments. -/
def combinesOdd (table : ShortNames) : TypeExpr → Bool
  | .named _ arguments => combinesOddAmong table arguments
  | .array element => combinesOdd table element

def combinesOddAmong (table : ShortNames) : List TypeExpr → Bool
  | [] => false
  | type :: types =>
    (table.oddMeaning? type).isSome || combinesOdd table type || combinesOddAmong table types

end

/-- What qualifying a value needs. -/
def qualifying {α : Type} (table : ShortNames) : Json → Trace α
  | .text s => if table.combinesOdd (.read s) then [.error .wrongType] else []
  | other => Trace.use other

end ShortNames

/-- What the merge looks things up in. -/
structure Reference where
  corpus : Corpus
  shortNames : ShortNames

namespace Reference

def ofCorpus (corpus : Corpus) (overrides : List (String × Json)) : Reference :=
  ⟨corpus, .ofCorpus corpus overrides⟩

/-- The type that a value stands for; what is no text stands for itself. -/
def qualify (r : Reference) : Json → Json
  | .text s => r.shortNames.qualify s
  | other => other

def qualifySlot (r : Reference) (slot : Slot) : Slot :=
  { slot with typeName := r.qualify slot.typeName }

def qualifyReturned (r : Reference) : Returned → Returned
  | .typed type description => .typed (r.qualify type) description
  | other => other

def qualifySignature (r : Reference) (signature : Signature) : Signature :=
  { signature with
    parameters := signature.parameters.map r.qualifySlot
    returned := r.qualifyReturned signature.returned }

end Reference

end ScriptTypings
