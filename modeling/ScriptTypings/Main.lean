import ScriptTypings.CommandLine.Outcome
import ScriptTypings.Markup.Reader

/-!
# The program

The files that a run may read are fetched into a storage; the run works on the storage, and the
files that it changed are written back.
-/

namespace ScriptTypings.CommandLine

/-- What stands at a place, read from the file system. -/
def fetchItem? (at_ : List String) : IO (Option Item) := do
  let text := (Storage.pathTo at_).text
  try
    if ← (← IO.FS.realPath text).isDir then return some .folder
    else return some (.file (← IO.FS.readBinFile text))
  catch _ => return none

/-- Fetches what stands at a place into a storage. -/
def fetch (storage : Storage) (at_ : List String) : IO Storage := do
  match ← fetchItem? at_ with
  | some item => return storage.put at_ item
  | none => return storage

/-- Fetches what stands on the way along a path and at its end, and answers where it ends. -/
def fetchAlong (storage : Storage) (path : Path) : IO (List String × Storage) :=
  path.parts.foldlM
    (fun (at_, storage) part => do
      let next := Storage.step at_ part
      return (next, ← fetch storage next))
    (Storage.origin path, storage)

/-- Fetches all that stands below a folder. -/
partial def fetchBelow (storage : Storage) (at_ : List String) : IO Storage := do
  let storage ← fetch storage at_
  match storage.item? at_ with
  | some .folder =>
    let entries ← (← IO.FS.realPath (Storage.pathTo at_).text).readDir
    entries.foldlM (fun storage entry => fetchBelow storage (at_ ++ [entry.fileName])) storage
  | _ => return storage

/-- The paths that a run reads or writes beside the documents. -/
def pathsOf (arguments : Arguments) : List Path :=
  let settings := arguments.settings
  [settings.documents, settings.cache] ++ arguments.reflection.toList ++
    arguments.output.toList ++ arguments.dump.toList ++
    settings.supplies.toList.flatMap fun folder =>
      [Supplies.headerPath folder, Supplies.overridesPath folder, Supplies.arityPath folder]

/-- The storage that a run works on. -/
def storageFor (arguments : Arguments) : IO Storage := do
  let fetched ← (pathsOf arguments).foldlM
    (fun storage path => return (← fetchAlong storage path).2) {}
  let (at_, storage) ← fetchAlong fetched arguments.settings.documents
  match storage.hasFolder arguments.settings.documents with
  | .ok true => fetchBelow storage at_
  | _ => return storage

/-- Whether a storage holds a file with a certain content. -/
def holds (storage : Storage) (at_ : List String) (content : ByteArray) : Bool :=
  match storage.item? at_ with
  | some (.file old) => old == content
  | _ => false

/-- Writes the files that differ between two storages. -/
def writeBack (before after : Storage) : IO Unit :=
  after.items.forM fun
    | (at_, .folder) => IO.FS.createDirAll (Storage.pathTo at_).text
    | (at_, .file content) =>
      if holds before at_ content then pure ()
      else IO.FS.writeBinFile (Storage.pathTo at_).text content

/-- The storage for a command line; it stays empty unless the command line asks for a run. -/
def storageOf (arguments : List String) : IO Storage :=
  match Request.ofArguments arguments with
  | .ok (.run request) => storageFor request
  | _ => return {}

/-- The account of a failure that is not reported. -/
def unreportedText : Outcome → String
  | .failed failure => if failure.report?.isSome then "" else "\nThe run failed.\n"
  | _ => ""

end ScriptTypings.CommandLine

open ScriptTypings.CommandLine in
def main (arguments : List String) : IO UInt32 := do
  let before ← storageOf arguments
  let finished := perform ScriptTypings.Markup.readPage arguments before
  writeBack before finished.storage
  (← IO.getStdout).putStr finished.printed
  let time ← IO.monoMsNow
  let stderr ← IO.getStderr
  stderr.putStr (finished.errorText fun _ => toString time)
  stderr.putStr (unreportedText finished.outcome)
  return UInt32.ofNat (finished.outcome.status?.getD 1)
