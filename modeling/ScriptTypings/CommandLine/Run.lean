import ScriptTypings.CommandLine.Arguments
import ScriptTypings.Corpus.Cache
import ScriptTypings.Corpus.Validation
import ScriptTypings.Declarations.Emitter
import ScriptTypings.Inputs
import ScriptTypings.Merge.Merger
import ScriptTypings.Surface.Coverage
import ScriptTypings.Surface.Dump

/-!
# A run

A run loads its inputs, takes the corpus from the cache or builds it, checks it, merges the
reflected tree with it, and writes the dump and the declarations. A corpus with errors ends the run
early, and so does a text that cannot be written: where lone surrogates were read, this is one with
a character that stands for them.
-/

namespace ScriptTypings.CommandLine

/-- What is printed about the corpus. -/
def corpusLines (corpus : Corpus) : Option BuildReport → List String
  | none => ["  ✓ " ++ toString corpus.size ++ " entries (cached)"]
  | some report =>
    ("  ✓ " ++ toString report.parsed ++ "/" ++ toString report.total ++ " documents, " ++
        toString corpus.size ++ " entries") ::
      (if report.skipped.isEmpty then []
        else ["    Skipped: " ++ toString report.skipped.length]) ++
      report.unrecognized.map ("    Unrecognized title: " ++ ·)

/-- What is printed about a checked corpus. -/
def validationLines (validation : Validation) : List String :=
  if !validation.errors.isEmpty then
    "\nValidation errors:" :: validation.errors.map fun e => "  ✗ " ++ e.message
  else if !validation.warnings.isEmpty then
    ["  " ++ toString validation.warnings.length ++ " validation warnings (use --verbose)"]
  else []

def coverageLine (coverage : Coverage) : String :=
  "\nCoverage: " ++ coverage.percentage ++ " (" ++ toString coverage.resolved ++ "/" ++
    toString coverage.total ++ " members)"

def dumpText (surface : Surface) : String :=
  surface.dump.write ⟨some 2⟩ ++ "\n"

def printLines (lines : List String) : Action Unit :=
  lines.forM Action.printLine

def loadCorpus (reader : PageReader) (arguments : Arguments) : Action Corpus := do
  let settings := arguments.settings
  Action.printLine "Building reference corpus..."
  let some cache := arguments.cache? | throw .noPath
  let (corpus, report) ←
    Corpus.loadOrBuild reader settings.options settings.strict arguments.rebuild
      arguments.documents? cache
  printLines (corpusLines corpus report)
  return corpus

/-- Whether lone surrogates are read of the text in a file. -/
def readsLone (storage : Storage) (path? : Option Path) : Bool :=
  match path?.map storage.readText with
  | some (.ok text) => Json.readsLone text
  | _ => false

/-- Prints lines up to one that is torn. -/
def printUntilTorn (hasLone : Bool) (lines : List String) : Action Unit :=
  lines.forM fun line => do
    Action.stopIfTorn (hasLone && Json.standsIn line)
    Action.printLine line

/-- Checks a corpus; the answer is whether it has no errors. -/
def checkCorpus (hasLone strict : Bool) (corpus : Corpus) : Action Bool := do
  let validation := corpus.validate strict
  Action.logAll (validation.warnings.map fun w => ⟨.debug, .commandLine, w.message⟩)
  printUntilTorn hasLone (validationLines validation)
  return validation.errors.isEmpty

/-- Merges the reflected tree with a corpus. -/
def mergeInputs (inputs : Inputs) (corpus : Corpus) : Action Surface := do
  Action.printLine "Merging iteration tree..."
  Action.stopAt (ShortNames.misfit? corpus)
  let merged := mergeTree inputs.root corpus inputs.supplies.overrides
  Action.logAll (merged.trace.notes.map fun note => ⟨.debug, .merge, note⟩)
  Action.stopAt merged.trace.misfit?
  Action.printLine (coverageLine (.ofSurface merged.surface))
  return merged.surface

/-- Writes a file into a folder that is made if it is missing. -/
def writeFile (path : Path) (text : String) : Action Unit := do
  Action.makeParent path
  Action.writeText path text

/-- Writes the dump. The file stays empty if the dump is torn. -/
def writeDump (hasLone : Bool) (surface : Surface) : Option Path → Action Unit
  | none => pure ()
  | some path => do
    let isTorn := hasLone && surface.dump.hasStandIn
    writeFile path (if isTorn then "" else dumpText surface)
    Action.stopIfTorn isTorn
    Action.printLine ("  " ++ path.text)

/-- The text of the declarations of a surface. -/
def declarationText (supplies : Supplies) (surface : Surface) : String :=
  (Declarations.declarationText? (.ofPairs supplies.arity) supplies.header surface).getD ""

/-- Writes the declarations. The file is emptied first, and stays so where writing stops. -/
def writeDeclarations (hasLone : Bool) (supplies : Supplies) (surface : Surface) (path : Path) :
    Action Unit := do
  let table := Declarations.ArityTable.ofPairs supplies.arity
  let trace := Declarations.rootTrace table surface
  writeFile path ""
  Action.logAll (trace.done.map fun warning => ⟨.warning, .declarations, warning⟩)
  Action.stopAt trace.misfit?
  let text := declarationText supplies surface
  Action.stopIfTorn (hasLone && Json.standsIn text)
  Action.writeText path text
  Action.printLine ("  " ++ path.text)

/-- Runs; the answer is whether the corpus was without errors. -/
def run (reader : PageReader) (arguments : Arguments) : Action Bool := do
  if arguments.lacking.contains .supplies then throw .noFolder
  let inputs ← Inputs.load arguments.settings.supplies arguments.reflection
  let corpus ← loadCorpus reader arguments
  let loneCorpus ← Action.ask fun storage => .ok (readsLone storage arguments.cache?)
  if ← checkCorpus loneCorpus arguments.settings.strict corpus then
    let surface ← mergeInputs inputs corpus
    Action.printLine "\nGenerated:"
    let hasLone := inputs.hasLone || loneCorpus
    writeDump hasLone surface arguments.dump
    let some output := arguments.output | throw .noPath
    writeDeclarations hasLone inputs.supplies surface output
    return true
  else return false

end ScriptTypings.CommandLine
