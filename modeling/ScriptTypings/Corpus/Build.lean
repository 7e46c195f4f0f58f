import ScriptTypings.Corpus.Extension
import ScriptTypings.Number.Fixed
import ScriptTypings.Page.Document
import ScriptTypings.Session.Basic

/-!
# Building a corpus

The documents below a folder are read in the order of their paths, and their entries are added one
after the other. A document of unknown title is skipped unless the build is strict; any other
document that cannot be read aborts the build.
-/

namespace ScriptTypings

open Number

structure BuildReport where
  total : Nat
  parsed : Nat := 0
  skipped : List (String × SkipReason) := []
  deriving DecidableEq, Repr

namespace BuildReport

/-- The documents whose titles are not known. -/
def unrecognized (report : BuildReport) : List String :=
  (report.skipped.filter fun s => s.2 = .unknownTitle).map Prod.fst

end BuildReport

namespace Corpus

/-- A document: its path below the folder of all documents, and its content. -/
abbrev Source := String × ByteArray

def documentExtensions : List (List Char) := [".htm".toList, ".html".toList]

def isDocument (place : List String) : Bool :=
  match place.getLast? with
  | some name => documentExtensions.contains (Text.lower (Path.extension name))
  | none => false

/-- The documents below a folder, in the order of their paths. -/
def sources (storage : Storage) (folder : Path) : List Source :=
  ((storage.filesBelow folder).filter fun file => isDocument file.1).map fun file =>
    (Text.join "/" file.1, file.2)

def readSource (reader : PageReader) (options : DocumentOptions) (source : Source) :
    Except BuildCause Document :=
  match textOfBytes? source.2 with
  | none => .error .notText
  | some text =>
    match Document.parse reader options text with
    | .ok document => .ok document
    | .error e => .error (.page e)

/-- The corpus and the report while documents are read. -/
structure BuildState where
  corpus : Corpus := {}
  report : BuildReport

/-- What is said before a document is read. -/
def progressText (path : String) (index : Nat) (report : BuildReport) : String :=
  "Parsing " ++ path ++ " (" ++
    ((Binary64.ofRatio false index report.total).timesNat 100).fixed 4 ++ " %, skipping " ++
    toString report.skipped.length ++ " out of " ++ toString report.total ++ " docs)..."

def BuildState.skip (s : BuildState) (path : String) (reason : SkipReason) : BuildState :=
  { s with report := { s.report with skipped := s.report.skipped ++ [(path, reason)] } }

def BuildState.accept (s : BuildState) (entries : Page.Entries) : BuildState :=
  { corpus := s.corpus.addAll entries, report := { s.report with parsed := s.report.parsed + 1 } }

/-- Takes in what was read from a document, and says why it is skipped if that is worth a record. -/
def BuildState.take (s : BuildState) (strict : Bool) (path : String) :
    Except BuildCause Document → Except Failure (BuildState × List LogRecord)
  | .ok ⟨_, _, .entries entries⟩ => .ok (s.accept entries, [])
  | .ok ⟨_, _, .skipped reason⟩ =>
    .ok (s.skip path reason,
      match reason with
      | .unspelled identifier language =>
        [⟨.debug, .pages, identifier ++ " has no " ++ language ++ " type spelling"⟩]
      | _ => [])
  | .error (.page (.unknownTitle title)) =>
    if strict then .error (.build path (.page (.unknownTitle title)))
    else
      .ok (s.skip path .unknownTitle,
        [⟨.warning, .corpus,
          "Skipping " ++ path ++ ": " ++ (PageError.unknownTitle title).message⟩])
  | .error cause => .error (.build path cause)

/-- Reads the documents from a number on. -/
def readSources (reader : PageReader) (options : DocumentOptions) (strict : Bool) :
    Nat → BuildState → List Source → Action BuildState
  | _, s, [] => pure s
  | index, s, source :: sources => do
    Action.log .info .corpus (progressText source.1 index s.report)
    match s.take strict source.1 (readSource reader options source) with
    | .error failure => throw failure
    | .ok (next, records) =>
      Action.logAll records
      readSources reader options strict (index + 1) next sources

/-- Builds a corpus from documents and records the extensions of its interfaces. -/
def ofSources (reader : PageReader) (options : DocumentOptions) (strict : Bool)
    (sources : List Source) : Action (Corpus × BuildReport) := do
  let s ← readSources reader options strict 1 { report := { total := sources.length } } sources
  match s.corpus.linkExtensions? with
  | none => throw .unnamedInterface
  | some linked =>
    Action.logAll (linked.trace.done.map fun c => ⟨.warning, .corpus, c.message⟩)
    Action.stopAt linked.trace.misfit?
    Action.log .info .corpus
      ("Parsed " ++ toString s.report.parsed ++ " documents, skipped " ++
        toString s.report.skipped.length)
    return (linked.corpus, s.report)

/-- Builds a corpus from the documents below a folder. -/
def build (reader : PageReader) (options : DocumentOptions) (strict : Bool) (folder : Path) :
    Action (Corpus × BuildReport) := do
  if ← Action.ask (Storage.hasFolder · folder) then
    ofSources reader options strict (sources (← get).storage folder)
  else throw (.input (.documentsMissing folder.text))

end Corpus

end ScriptTypings
