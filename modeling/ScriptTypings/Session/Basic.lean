import ScriptTypings.Log
import ScriptTypings.Session.Failure
import ScriptTypings.Storage.Content

/-!
# Sessions

A `Session` is what a run changes: files, the log and the printed text. An `Action` changes it and
may fail; what it changed before it failed stays changed.
-/

namespace ScriptTypings

structure Session where
  storage : Storage := {}
  log : List LogRecord := []
  printed : String := ""

abbrev Action := ExceptT Failure (StateM Session)

namespace Action

def log (level : LogLevel) (source : LogSource) (text : String) : Action Unit :=
  modify fun s => { s with log := s.log ++ [⟨level, source, text⟩] }

def logAll (records : List LogRecord) : Action Unit :=
  modify fun s => { s with log := s.log ++ records }

/-- Fails if there is a cause. -/
def stopAt : Option Misfit → Action Unit
  | some cause => throw (.misfit cause)
  | none => pure ()

/-- Fails if a text is torn: a lone surrogate cannot be written. -/
def stopIfTorn (isTorn : Bool) : Action Unit :=
  if isTorn then throw .unencodable else pure ()

/-- Prints a text and ends the line. -/
def printLine (text : String) : Action Unit :=
  modify fun s => { s with printed := s.printed ++ text ++ "\n" }

/-- Asks something of the storage. -/
def ask (question : Storage → Except FileError Bool) : Action Bool := do
  match question (← get).storage with
  | .ok answer => return answer
  | .error e => throw (.file e)

/-- The text of a file; a reason for not reading it is turned into a failure. -/
def readText (path : Path) (failure : FileError → Failure) : Action String := do
  match (← get).storage.readText path with
  | .ok text => return text
  | .error e => throw (failure e)

def writeText (path : Path) (text : String) : Action Unit := do
  match (← get).storage.writeText path text with
  | .ok storage => modify fun s => { s with storage }
  | .error e => throw (.file e)

/-- Makes the folder of a file, and those around it. -/
def makeParent (path : Path) : Action Unit := do
  let (storage, error?) := (← get).storage.makeFolder path.parent
  modify fun s => { s with storage }
  match error? with
  | none => pure ()
  | some e => throw (.file e)

/-- The outcome of an action, and the session behind it. -/
def runOn {α : Type} (action : Action α) (session : Session) : Except Failure α × Session :=
  (ExceptT.run action).run session

end Action

end ScriptTypings
