import ScriptTypings.Corpus.Build
import ScriptTypings.Corpus.Encoding

/-!
# The corpus cache

A corpus that was built is kept in a file and used again as long as the file exists. The file is
written only after a build without failure.
-/

namespace ScriptTypings.Corpus

def save (corpus : Corpus) (path : Path) : Action Unit := do
  Action.makeParent path
  Action.writeText path corpus.text

/-- The failure for a cache file that cannot be read. -/
def cacheFailure (path : Path) (error : FileError) : Failure :=
  if error.account?.isSome then .input (.cacheUnreadable path.text error) else .file error

/-- The corpus that the text of a cache file holds. -/
def ofText (path : Path) (text : String) : Except Failure Corpus :=
  decodeText (.cacheMalformed path.text) ofJson .decoding text

def load (path : Path) : Action Corpus := do
  let text ← Action.readText path (cacheFailure path)
  match ofText path text with
  | .ok corpus => return corpus
  | .error failure => throw failure

/-- Whether something stands at the path of the cache. -/
def hasCache (storage : Storage) (path : Path) : Except FileError Bool :=
  storage.has path

/-- The corpus of the cache, or else a new one, with the report of its build. The folder of the
documents is needed for a new one only. -/
def loadOrBuild (reader : PageReader) (options : DocumentOptions) (strict force : Bool)
    (folder : Option Path) (cache : Path) : Action (Corpus × Option BuildReport) := do
  if (← Action.ask (hasCache · cache)) && !force then
    Action.log .info .corpus ("Using cached corpus " ++ cache.text)
    return (← load cache, none)
  else
    let some folder := folder | throw .noPath
    let (corpus, report) ← build reader options strict folder
    save corpus cache
    Action.log .info .corpus
      ("Wrote corpus cache " ++ cache.text ++ " (" ++ toString corpus.size ++ " entries)")
    return (corpus, some report)

end ScriptTypings.Corpus
