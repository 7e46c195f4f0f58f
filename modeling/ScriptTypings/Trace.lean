import ScriptTypings.Json.Basic

/-!
# Steps and where they stop

Entries read from files may hold other values where texts are meant. Such values are kept, and the
work goes on until one of them is used as only a text can be. A `Trace` lists what is done step by
step; an error in it is where the work stops.
-/

namespace ScriptTypings

/-- Why work stops: a value that is no text is asked for what a text has, or is put together or
compared with texts, or a type lacks more arguments than can be written. -/
inductive Misfit
  | noText
  | wrongType
  | excess (missing : Nat)
  deriving DecidableEq, Repr

/-- Steps in order; the steps behind an error are not taken. -/
abbrev Trace (α : Type) := List (Except Misfit α)

namespace Trace

variable {α : Type}

/-- The steps that are taken. -/
def done : Trace α → List α
  | .ok a :: trace => a :: done trace
  | _ => []

/-- Why the work stops, if it does. -/
def misfit? : Trace α → Option Misfit
  | [] => none
  | .ok _ :: trace => misfit? trace
  | .error misfit :: _ => some misfit

def step (a : α) : Trace α :=
  [.ok a]

/-- Asks a value for what a text has. -/
def use (value : Json) : Trace α :=
  if value.isText then [] else [.error .noText]

/-- Asks a value for what a text has, unless it counts as empty. -/
def useFilled (value : Json) : Trace α :=
  if value.isEmpty then [] else use value

/-- Puts a value together with texts. -/
def combine (value : Json) : Trace α :=
  if value.isText then [] else [.error .wrongType]

end Trace

end ScriptTypings
