import ScriptTypings.CommandLine.Run

/-!
# Outcomes of a command line

The exit status tells a run that is done from one that failed and from a command line that cannot be
read. A failure without a message of its own has no status here.
-/

namespace ScriptTypings.CommandLine

inductive Outcome
  | helped
  | misused (error : UsageError)
  | finished (isValid : Bool)
  | failed (failure : Failure)
  deriving DecidableEq, Repr

namespace Outcome

/-- The exit status; none for a failure that is not reported. -/
def status? : Outcome → Option Nat
  | helped => some 0
  | misused _ => some 2
  | finished isValid => some (if isValid then 0 else 1)
  | failed failure => failure.report?.map fun _ => 1

/-- What is said about the outcome behind the log. -/
def report : Outcome → String
  | misused error => "uwp-typegen: error: " ++ error.message ++ "\n"
  | failed failure => (failure.report?.map fun message => "\n✗ " ++ message ++ "\n").getD ""
  | _ => ""

end Outcome

/-- The least level of the log records that a run shows. -/
def Arguments.logLevel (arguments : Arguments) : LogLevel :=
  if arguments.verbose then .debug else .info

/-- A run's outcome, the storage behind it, and what it showed. -/
structure Finished where
  outcome : Outcome
  storage : Storage
  printed : String := ""
  log : List LogRecord := []

def usageText : String :=
  "usage: uwp-typegen --iteration FILE --output FILE [--debug FILE] [--force-reparse]\n" ++
    "                   [--docs FOLDER] [--cache FILE] [--supplies FOLDER] [--strict] [--verbose]\n"

/-- Does what a command line asks for. -/
def perform (reader : PageReader) (arguments : List String) (storage : Storage) : Finished :=
  match Request.ofArguments arguments with
  | .error e => { outcome := .misused e, storage }
  | .ok .help => { outcome := .helped, storage, printed := usageText }
  | .ok (.run arguments) =>
    let (result, session) := (run reader arguments).runOn { storage }
    { outcome :=
        match result with
        | .ok isValid => .finished isValid
        | .error failure => .failed failure
      storage := session.storage
      printed := session.printed
      log := session.log.filter (LogRecord.isShown arguments.logLevel) }

/-- The log and the report, every record with its time. -/
def Finished.errorText (time : LogRecord → String) (finished : Finished) : String :=
  finished.log.foldl (fun text record => text ++ record.line (time record) ++ "\n") "" ++
    finished.outcome.report

end ScriptTypings.CommandLine
