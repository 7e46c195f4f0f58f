import ScriptTypings.Entry.Basic
import ScriptTypings.Text.LowerCase

/-!
# The reference corpus

A `Corpus` holds every documented item under the lower-case form of its identifier. Adding a
function to a function puts their signatures together; anything else takes the place of what was
there. `items` lists the entries in the order of their keys.
-/

namespace ScriptTypings

open Text

structure Corpus where
  entries : NameMap Entry := []

namespace Corpus

/-- What stands under a key after an entry is added to what stood there. -/
def combine (before : Option Entry) (entry : Entry) : Entry :=
  match before, entry.content with
  | some ⟨identifier, description, .function old⟩, .function new =>
    ⟨identifier, description, .function (old ++ new)⟩
  | _, _ => entry

def add (corpus : Corpus) (key : String) (entry : Entry) : Corpus :=
  let key := lowered key
  ⟨NameMap.put key (combine (NameMap.find? key corpus.entries) entry) corpus.entries⟩

def addAll (corpus : Corpus) (pairs : List (String × Entry)) : Corpus :=
  pairs.foldl (fun c p => c.add p.1 p.2) corpus

def ofPairs (pairs : List (String × Entry)) : Corpus :=
  addAll {} pairs

def get? (corpus : Corpus) (key : String) : Option Entry :=
  NameMap.find? (lowered key) corpus.entries

def contains (corpus : Corpus) (key : String) : Bool :=
  (corpus.get? key).isSome

def size (corpus : Corpus) : Nat :=
  corpus.entries.length

/-- The entries with their keys, in ascending order of the keys. -/
def items (corpus : Corpus) : List (String × Entry) :=
  NameMap.sorted corpus.entries

def keys (corpus : Corpus) : List String :=
  corpus.items.map Prod.fst

/-- The signatures of a function entry. -/
def function? (corpus : Corpus) (key : String) : Option (List Signature) :=
  match corpus.get? key with
  | some ⟨_, _, .function signatures⟩ => some signatures
  | _ => none

/-- The listing of an interface entry. -/
def interface? (corpus : Corpus) (key : String) : Option InterfaceListing :=
  match corpus.get? key with
  | some ⟨_, _, .interface listing⟩ => some listing
  | _ => none

end Corpus

end ScriptTypings
