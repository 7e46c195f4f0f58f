/-!
# Log records

What the program says about its work, with a level and the part of the program that says it.
-/

namespace ScriptTypings

inductive LogLevel
  | debug
  | info
  | warning
  deriving DecidableEq, Repr

namespace LogLevel

def name : LogLevel → String
  | debug => "DEBUG"
  | info => "INFO"
  | warning => "WARNING"

def rank : LogLevel → Nat
  | debug => 10
  | info => 20
  | warning => 30

end LogLevel

inductive LogSource
  | pages
  | corpus
  | supplies
  | merge
  | declarations
  | commandLine
  deriving DecidableEq, Repr

namespace LogSource

/-- The name under which a part of the program logs. -/
def name : LogSource → String
  | pages => "uwp_typegen.extractors"
  | corpus => "uwp_typegen.corpus"
  | supplies => "uwp_typegen.config"
  | merge => "uwp_typegen.mapper"
  | declarations => "uwp_typegen.generators"
  | commandLine => "uwp_typegen.cli"

end LogSource

structure LogRecord where
  level : LogLevel
  source : LogSource
  text : String
  deriving DecidableEq, Repr

namespace LogRecord

/-- Whether a record is shown where the given level and those above it are. -/
def isShown (least : LogLevel) (record : LogRecord) : Bool :=
  least.rank ≤ record.level.rank

/-- The record on one line. -/
def line (time : String) (record : LogRecord) : String :=
  time ++ " " ++ record.level.name ++ " " ++ record.source.name ++ ": " ++ record.text

end LogRecord

end ScriptTypings
