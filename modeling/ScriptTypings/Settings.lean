import ScriptTypings.Page.Document
import ScriptTypings.Storage.Path

/-!
# Settings

Where a run finds the documents, the corpus cache and the supplementary files, and how it reads the
documents.
-/

namespace ScriptTypings

structure Settings where
  documents : Path := .ofText "referencedocs"
  cache : Path := .ofText "built/typings.json"
  /-- The folder of the supplementary files; without one, the bundled supplies are used. -/
  supplies : Option Path := none
  options : DocumentOptions := {}
  strict : Bool := false
  deriving DecidableEq, Repr

namespace Supplies

def headerPath (folder : Path) : Path :=
  folder.file "prepend.d.ts"

def overridesPath (folder : Path) : Path :=
  folder.file "shortname-overrides.json"

def arityPath (folder : Path) : Path :=
  folder.file "generic-arity.json"

end Supplies

end ScriptTypings
