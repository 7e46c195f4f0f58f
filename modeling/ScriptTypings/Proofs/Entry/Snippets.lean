import ScriptTypings.Entry.Basic
import ScriptTypings.Proofs.NameMap

/-!
# Entries up to the order of code samples

The code samples of a signature are looked up by language, so their order says nothing.
`mapSnippets` exchanges the code samples of every signature: `sortSnippets` puts them in order and
`withoutSnippets` drops them. Two entries agree if they say the same with every code sample looked
up.
-/

namespace ScriptTypings

namespace Signature

/-- The signature with other code samples. -/
def mapSnippets (f : NameMap Json → NameMap Json) (signature : Signature) : Signature :=
  { signature with snippets := f signature.snippets }

/-- The code sample in a language. -/
def snippet? (signature : Signature) (language : String) : Option Json :=
  NameMap.find? language signature.snippets

end Signature

namespace Content

/-- The content with other code samples in every signature. -/
def mapSnippets (f : NameMap Json → NameMap Json) : Content → Content
  | delegate signature => delegate (signature.mapSnippets f)
  | function signatures => function (signatures.map (Signature.mapSnippets f))
  | other => other

/-- The signatures of a delegate or a function. -/
def signatures : Content → List Signature
  | delegate signature => [signature]
  | function signatures => signatures
  | _ => []

theorem signatures_mapSnippets (f : NameMap Json → NameMap Json) (content : Content) :
    (content.mapSnippets f).signatures = content.signatures.map (Signature.mapSnippets f) := by
  cases content <;> rfl

end Content

namespace Entry

def mapSnippets (f : NameMap Json → NameMap Json) (entry : Entry) : Entry :=
  { entry with content := entry.content.mapSnippets f }

def withoutSnippets (entry : Entry) : Entry :=
  entry.mapSnippets fun _ => []

def sortSnippets (entry : Entry) : Entry :=
  entry.mapSnippets NameMap.sorted

/-- Two entries are equal field by field, where code samples are compared by language. -/
structure Agrees (entry entry' : Entry) : Prop where
  rest : entry'.withoutSnippets = entry.withoutSnippets
  snippets : entry'.content.signatures.map Signature.snippet? =
    entry.content.signatures.map Signature.snippet?

theorem withoutSnippets_mapSnippets (f : NameMap Json → NameMap Json) (entry : Entry) :
    (entry.mapSnippets f).withoutSnippets = entry.withoutSnippets := by
  obtain ⟨identifier, description, content⟩ := entry
  cases content <;> simp [withoutSnippets, mapSnippets, Content.mapSnippets, Signature.mapSnippets]

end Entry

end ScriptTypings
