import ScriptTypings.Settings
import ScriptTypings.Supplies.Bundled
import ScriptTypings.Supplies.Table

/-!
# Inputs of a run

All inputs but the documents are read before a run begins: the header, the overrides of short names,
the numbers of type arguments and the reflected tree, in this order.
-/

namespace ScriptTypings

namespace Reflected

/-- The failure for a file of a reflected tree that cannot be read. -/
def fileFailure (path : Path) : FileError → Failure
  | .notFound => .input (.reflectionMissing path.text)
  | error => .file error

/-- The root that the text of a file holds. -/
def rootOfText (path : Path) (text : String) : Except Failure Root :=
  decodeText (.reflectionMalformed path.text) rootOfJson .reflection text

/-- Loads the reflected tree of a file, and tells whether lone surrogates were read with it. -/
def load (path : Path) : Action (Root × Bool) := do
  let text ← Action.readText path (fileFailure path)
  match rootOfText path text with
  | .ok root => return (root, Json.readsLone text)
  | .error failure => throw failure

end Reflected

/-- The supplementary files of a run. -/
structure Supplies where
  header : String
  overrides : List (String × Json)
  arity : List (String × Int)
  deriving DecidableEq

namespace Supplies

def bundled : Supplies :=
  { header := bundledHeader
    overrides := bundledOverrides.map fun o => (o.1, o.2)
    arity := bundledArity }

/-- Loads the supplementary files of a folder. -/
def load (folder : Path) : Action Supplies := do
  let header ← loadHeader (headerPath folder)
  let overrides ← loadTable (overridesPath folder)
  let arity ← loadArity (arityPath folder)
  return { header, overrides, arity }

/-- The supplies of a folder, or else the bundled ones. -/
def loadFrom : Option Path → Action Supplies
  | some folder => load folder
  | none => return bundled

end Supplies

structure Inputs where
  supplies : Supplies
  root : Reflected.Root
  hasLone : Bool

/-- Loads the inputs of a run. -/
def Inputs.load (suppliesFolder reflection : Option Path) : Action Inputs := do
  let supplies ← Supplies.loadFrom suppliesFolder
  let some reflection := reflection | throw .noPath
  let (root, hasLone) ← Reflected.load reflection
  return { supplies, root, hasLone }

end ScriptTypings
