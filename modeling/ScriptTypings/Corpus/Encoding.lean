import ScriptTypings.Corpus.Basic
import ScriptTypings.Entry.Encoding
import ScriptTypings.Json.Reader
import ScriptTypings.Json.Writer

/-!
# The corpus as JSON

A corpus is written as an object of its entries, members sorted at every level, so that equal
corpora have equal texts.
-/

namespace ScriptTypings.Corpus

def toJson (corpus : Corpus) : Json :=
  .object (corpus.items.map fun item => (item.1, item.2.toJson))

/-- The text of a corpus. -/
def text (corpus : Corpus) : String :=
  corpus.toJson.sortMembers.write ⟨some 2⟩ ++ "\n"

/-- Reads every member as an entry, then adds them in order. -/
def ofJson (value : Json) : Except DecodingError Corpus := do
  let members ← Decoding.members value
  let pairs ← members.mapM fun (key, value) => do return (key, ← Entry.ofJson value)
  return ofPairs pairs

end ScriptTypings.Corpus
