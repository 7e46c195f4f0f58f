import ScriptTypings.Corpus.Basic
import ScriptTypings.Identifier
import ScriptTypings.Json.Display
import ScriptTypings.Trace

/-!
# Numbered interfaces

Interfaces `IFoo2`, `IFoo3` and so on continue an interface `IFoo`. `linkExtensions?` records for
each interface the longest run of such interfaces whose members have names of their own. An
interface with a number at its end continues another one and is given none. A member that is no text
has no name, and ends the work.
-/

namespace ScriptTypings.Corpus

open Text

/-- The names of an interface's members, up to case. -/
def memberNames (listing : InterfaceListing) : List String :=
  listing.members.map fun id => lowered (Identifier.lastSegment id.asText)

/-- Why an interface's members cannot be named, if they cannot. -/
def memberMisfit? (listing : InterfaceListing) : Option Misfit :=
  Trace.misfit? (listing.members.flatMap fun id => (Trace.use id : Trace Unit))

/-- The names that occur in both lists, once each, in ascending order. -/
def collisions (seen names : List String) : List String :=
  ((names.filter seen.contains).mergeSort fun a b => decide (a ≤ b)).eraseDups

/-- Two interfaces that cannot be put together, and the names that they share. -/
structure Collision where
  base : String
  extension : String
  names : List String
  deriving DecidableEq, Repr

namespace Collision

def message (c : Collision) : String :=
  "Not folding " ++ c.extension ++ " into " ++ c.base ++ ": colliding members " ++
    join ", " c.names

end Collision

/-- What ends a run of extensions: no interface has the next number, the next one shares names with
those before, or its members cannot be named. -/
inductive Ending
  | complete
  | collision (found : Collision)
  | misfit (cause : Misfit)
  deriving DecidableEq, Repr

namespace Ending

/-- What is said about an ending. -/
def trace : Ending → Trace Collision
  | complete => []
  | collision found => Trace.step found
  | misfit cause => [.error cause]

end Ending

/-- The entry of an interface, with its listing. -/
def interfaceEntry? (corpus : Corpus) (key : String) : Option (Json × InterfaceListing) :=
  match corpus.get? key with
  | some ⟨identifier, _, .interface listing⟩ => some (identifier, listing)
  | _ => none

/-- The identifiers of the extensions from a number on, and what ends them. The fuel bounds their
number. -/
def extensionsFrom (corpus : Corpus) (key : String) (identifier : Json) :
    (fuel number : Nat) → (seen : List String) → List Json × Ending
  | 0, _, _ => ([], .complete)
  | fuel + 1, number, seen =>
    match corpus.interfaceEntry? (key ++ toString number) with
    | none => ([], .complete)
    | some (extension, listing) =>
      match memberMisfit? listing, collisions seen (memberNames listing) with
      | some cause, _ => ([], .misfit cause)
      | none, [] =>
        let (found, ending) :=
          extensionsFrom corpus key identifier fuel (number + 1) (seen ++ memberNames listing)
        (extension :: found, ending)
      | none, shared => ([], .collision ⟨identifier.shown, extension.shown, shared⟩)

/-- The extensions of an interface; no more than the corpus has entries. -/
def extensions (corpus : Corpus) (key : String) (identifier : Json) (listing : InterfaceListing) :
    List Json × Ending :=
  match memberMisfit? listing with
  | some cause => ([], .misfit cause)
  | none => extensionsFrom corpus key identifier corpus.size 2 (memberNames listing)

/-- Whether a key ends with a digit; an empty key has no end. -/
def endsWithDigit? (key : String) : Option Bool :=
  key.toList.getLast?.map isDigitSign

/-- An entry with its extensions recorded, and what ended them. -/
def linkEntry (corpus : Corpus) (key : String) (entry : Entry) : Entry × Ending :=
  match entry with
  | ⟨identifier, description, .interface listing⟩ =>
    if endsWithDigit? key = some true then (entry, .complete)
    else
      let (found, ending) := corpus.extensions key identifier listing
      (⟨identifier, description, .interface { listing with extensions := found }⟩, ending)
  | _ => (entry, .complete)

/-- Whether some interface has an empty key, so that its number cannot be told. -/
def hasUnnamedInterface (corpus : Corpus) : Bool :=
  (corpus.interfaceEntry? "").isSome

/-- A corpus with recorded extensions, and what is said about them in the order of the keys. -/
structure Linked where
  corpus : Corpus
  trace : Trace Collision

/-- The first key at which recording stops, if it does. -/
def stoppingKey? (corpus : Corpus) : Option String :=
  (corpus.items.find? fun e => ((corpus.linkEntry e.1 e.2).2.trace.misfit?).isSome).map Prod.fst

/-- The corpus with the extensions of the interfaces recorded, in the order of their keys; none if
an interface has an empty key. -/
def linkExtensions? (corpus : Corpus) : Option Linked :=
  if corpus.hasUnnamedInterface then none
  else
    let stop := corpus.stoppingKey?
    some
      { corpus :=
          ⟨corpus.entries.map fun e =>
            if stop.all (e.1 ≤ ·) then (e.1, (corpus.linkEntry e.1 e.2).1) else e⟩
        trace := corpus.items.flatMap fun e => (corpus.linkEntry e.1 e.2).2.trace }

end ScriptTypings.Corpus
